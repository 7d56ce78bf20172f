/-
What the person who raised a ticket sees of it: the tickets they raised, newest first, and the thread of one, without the
notes that staff write for each other. The notes leave no trace in what anybody else is shown or answered: not which were
written, nor by whom, where or when, however the calls of the queue overlap.
-/
import Genzh.Admin.Support
import Genzh.Lib.Run

namespace Genzh.Admin

open Genzh.Lib Genzh.Domain Genzh.Infrastructure

/-! ## The reporter's view -/

/-- The tickets one account raised. -/
def listForReporter (reporter : UserId) (db : SupportDb) : List Ticket :=
  ((db.supportTickets.select fun t => t.reporterId = reporter).mergeSort fun t t' => t'.createdAt ≤ t.createdAt).take 100

/-- A ticket's thread, filtered for who is reading it. -/
def threadFor (caller : UserId) (role : PlatformRole) (ticketId : Uuid) (db : SupportDb) :
    Except ServiceError (List TicketMessage) := do
  let _ ← findFor db caller role ticketId
  pure ((db.supportMessages.select fun m => m.ticketId = ticketId && (role.isStaff || !m.staffOnly)).mergeSort
    fun m m' => m.createdAt ≤ m'.createdAt)

/-- A ticket and its thread. -/
structure TicketDetailResponse where
  ticket : Ticket
  messages : List TicketMessage
  deriving DecidableEq, Repr

/-- `GET /api/v1/support/tickets/{id}`. It is read as an ordinary account, also where the caller is staff. -/
def myTicket (caller : UserId) (ticketId : Uuid) (db : SupportDb) : Except ServiceError TicketDetailResponse := do
  let ticket ← findFor db caller .user ticketId
  let messages ← threadFor caller .user ticketId db
  pure { ticket, messages }

/-! ## Notes -/

/-- Does the request write a note? -/
def SupportRequest.isNote : SupportRequest → Bool
  | .reply _ _ role _ _ staffOnly => staffOnly && role.isStaff
  | _ => false

/-- The identifier of the message a reply is to insert. -/
def SupportRequest.messageId : SupportRequest → Option Uuid
  | .reply id .. => some id
  | _ => none

namespace SupportCall

/-- Is the call about to write a note? -/
def isNote : SupportCall → Bool
  | asked r => r.isNote
  | found _ _ _ role _ staffOnly => staffOnly && role.isStaff
  | _ => false

def messageId : SupportCall → Option Uuid
  | asked r => r.messageId
  | found _ id .. => some id
  | _ => none

/-- The message that the next statement inserts. -/
def posts (call : SupportCall) (db : SupportDb) : Option TicketMessage :=
  match call with
  | found ticket id caller role body staffOnly =>
    if db.supportMessages.contains id || !db.userExists caller then none
    else some (replyMessage db.now id ticket.id caller role body staffOnly)
  | _ => none

end SupportCall

/-! ## What a statement makes of the messages -/

section Statements

variable {toLowercase : String → String} {call : SupportCall} {db : SupportDb} {message : TicketMessage}

theorem posts_spec (h : call.posts db = some message) :
    call.messageId = some message.id ∧ message.staffOnly = call.isNote ∧ db.supportMessages.contains message.id = false := by
  cases call with
  | found ticket id caller role body staffOnly =>
    simp only [SupportCall.posts, Option.ite_none_left_eq_some, Bool.or_eq_true, not_or, Bool.not_eq_true] at h
    obtain ⟨⟨hnew, -⟩, hmessage⟩ := h
    obtain rfl := Option.some.inj hmessage
    exact ⟨rfl, rfl, hnew⟩
  | _ => cases h

/-- A statement reads no message but the one it would insert. -/
theorem advance_messages (toLowercase : String → String) (call : SupportCall) (db : SupportDb) (messages : Table TicketMessage)
    (h : ∀ id, call.messageId = some id → messages.contains id = db.supportMessages.contains id) :
    (call.advance toLowercase { db with supportMessages := messages }).1 = (call.advance toLowercase db).1 ∧
    (call.advance toLowercase { db with supportMessages := messages }).2 =
      { (call.advance toLowercase db).2 with supportMessages := (call.posts db).elim messages messages.insert } ∧
    (call.advance toLowercase db).2.supportMessages = (call.posts db).elim db.supportMessages db.supportMessages.insert := by
  cases call with
  | asked r =>
    cases r with
    | «open» id reporter input =>
      simp only [SupportCall.advance]
      split
      · exact ⟨rfl, rfl, rfl⟩
      · split
        · exact ⟨rfl, rfl, rfl⟩
        · split <;> exact ⟨rfl, rfl, rfl⟩
    | reply id caller role ticketId body staffOnly =>
      have hsame : findFor { db with supportMessages := messages } caller role ticketId = findFor db caller role ticketId := rfl
      simp only [SupportCall.advance, hsame]
      rcases findFor db caller role ticketId with e | ticket
      · exact ⟨rfl, rfl, rfl⟩
      · rcases validateBody body with e | body <;> exact ⟨rfl, rfl, rfl⟩
    | assign ticketId assignee =>
      simp only [SupportCall.advance]
      split <;> exact ⟨rfl, rfl, rfl⟩
    | setStatus ticketId status =>
      have hsame : reload { db with supportMessages := messages } ticketId = reload db ticketId := rfl
      simp only [SupportCall.advance, hsame]
      rcases reload db ticketId with e | ticket <;> exact ⟨rfl, rfl, rfl⟩
    | autoCloseStale staleAfter =>
      simp only [SupportCall.advance]
      split <;> exact ⟨rfl, rfl, rfl⟩
  | found ticket id caller role body staffOnly =>
    have hid : messages.contains id = db.supportMessages.contains id := h id rfl
    simp only [SupportCall.advance, SupportCall.posts, hid]
    rcases hnew : db.supportMessages.contains id with _ | _
    · rcases hauthor : db.userExists caller with _ | _ <;> exact ⟨rfl, rfl, rfl⟩
    · exact ⟨rfl, rfl, rfl⟩
  | posted ticketId role message => exact ⟨rfl, rfl, rfl⟩
  | moving ticketId status => exact ⟨rfl, rfl, rfl⟩
  | reloading ticketId => exact ⟨rfl, rfl, rfl⟩
  | answered result => exact ⟨rfl, rfl, rfl⟩

/-- After a statement the call has the message to insert that it had, or none. -/
theorem pending_advance (toLowercase : String → String) (call : SupportCall) (db : SupportDb) :
    ((call.advance toLowercase db).1.messageId = none ∧ (call.advance toLowercase db).1.isNote = false) ∨
    ((call.advance toLowercase db).1.messageId = call.messageId ∧ (call.advance toLowercase db).1.isNote = call.isNote) := by
  cases call with
  | asked r =>
    cases r with
    | «open» id reporter input =>
      simp only [SupportCall.advance]
      split
      · exact .inl ⟨rfl, rfl⟩
      · split
        · exact .inl ⟨rfl, rfl⟩
        · split <;> exact .inl ⟨rfl, rfl⟩
    | reply id caller role ticketId body staffOnly =>
      simp only [SupportCall.advance]
      split
      · exact .inl ⟨rfl, rfl⟩
      · split
        · exact .inl ⟨rfl, rfl⟩
        · exact .inr ⟨rfl, rfl⟩
    | assign ticketId assignee =>
      simp only [SupportCall.advance]
      split <;> exact .inl ⟨rfl, rfl⟩
    | setStatus ticketId status =>
      simp only [SupportCall.advance]
      split <;> exact .inl ⟨rfl, rfl⟩
    | autoCloseStale staleAfter =>
      simp only [SupportCall.advance]
      split <;> exact .inl ⟨rfl, rfl⟩
  | found ticket id caller role body staffOnly =>
    simp only [SupportCall.advance]
    split
    · exact .inl ⟨rfl, rfl⟩
    · split
      · exact .inl ⟨rfl, rfl⟩
      · split <;> exact .inl ⟨rfl, rfl⟩
  | posted ticketId role message => exact .inl ⟨rfl, rfl⟩
  | moving ticketId status => exact .inl ⟨rfl, rfl⟩
  | reloading ticketId => exact .inl ⟨rfl, rfl⟩
  | answered result => exact .inl ⟨rfl, rfl⟩

/-- Is the call over? -/
def SupportCall.isOver : SupportCall → Bool
  | answered _ => true
  | _ => false

/-- A call that writes a note touches no ticket, and is over once the note is written. -/
theorem advance_of_note (toLowercase : String → String) (call : SupportCall) (db : SupportDb)
    (h : (call.isNote || call.isOver) = true) :
    ((call.advance toLowercase db).1.isNote || (call.advance toLowercase db).1.isOver) = true ∧
    (call.advance toLowercase db).2.toDb = db.toDb ∧ (call.advance toLowercase db).2.supportTickets = db.supportTickets := by
  cases call with
  | asked r =>
    cases r with
    | reply id caller role ticketId body staffOnly =>
      simp only [SupportCall.advance]
      split
      · exact ⟨rfl, rfl, rfl⟩
      · split
        · exact ⟨rfl, rfl, rfl⟩
        · exact ⟨h, rfl, rfl⟩
    | _ => cases h
  | found ticket id caller role body staffOnly =>
    have hnote : (staffOnly && role.isStaff) = true := by simpa [SupportCall.isNote, SupportCall.isOver] using h
    simp only [SupportCall.advance]
    split
    · exact ⟨rfl, rfl, rfl⟩
    · split
      · exact ⟨rfl, rfl, rfl⟩
      · rw [if_neg (by simp [replyMessage, hnote])]
        exact ⟨rfl, rfl, rfl⟩
  | answered result => exact ⟨rfl, rfl, rfl⟩
  | _ => cases h

end Statements

/-! ## Queues that differ by notes -/

section Runs

variable {I : Type} [DecidableEq I]

/-- Is it the turn of a call that writes a note? -/
def noteTurn (requests : I → SupportRequest) : Event I Db → Bool
  | .turn i => (requests i).isNote
  | .outside _ => false

/-- No message that is not a note is to have this identifier. -/
def OffThread (requests : I → SupportRequest) (id : Uuid) : Prop :=
  ∀ i, (requests i).isNote = false → (requests i).messageId ≠ some id

/-- What is asked differs in the notes alone, and no note is given the identifier of a message that is none. -/
structure DifferByNotes (requests requests' : I → SupportRequest) : Prop where
  same_notes : ∀ i, (requests' i).isNote = (requests i).isNote
  same_others : ∀ i, (requests i).isNote = false → requests' i = requests i
  fresh : ∀ i, (requests i).isNote = true → ∀ id, (requests i).messageId = some id → OffThread requests id
  fresh' : ∀ i, (requests' i).isNote = true → ∀ id, (requests' i).messageId = some id → OffThread requests' id

/-- The notes and the other messages are kept apart: by who is to write them, and by their identifiers. -/
structure NotesApart (requests : I → SupportRequest) (σ : SupportSystem I) : Prop where
  notes : ∀ i, (requests i).isNote = true → ((σ.calls i).isNote || (σ.calls i).isOver) = true
  others : ∀ i, (requests i).isNote = false → (σ.calls i).isNote = false
  ids : ∀ i, (σ.calls i).messageId = none ∨ (σ.calls i).messageId = (requests i).messageId
  rows : ∀ m ∈ σ.store.supportMessages.rows, m.staffOnly = true → OffThread requests m.id

/-- The messages that are not notes. -/
def onThread (db : SupportDb) : List TicketMessage := db.supportMessages.rows.filter fun m => !m.staffOnly

/-- Nobody but the staff can tell the two apart. -/
structure Alike (requests requests' : I → SupportRequest) (σ τ : SupportSystem I) : Prop where
  left : NotesApart requests σ
  right : NotesApart requests' τ
  toDb : σ.store.toDb = τ.store.toDb
  tickets : σ.store.supportTickets = τ.store.supportTickets
  messages : onThread σ.store = onThread τ.store
  calls : ∀ i, (requests i).isNote = false → σ.calls i = τ.calls i

variable {toLowercase : String → String} {requests requests' : I → SupportRequest} {σ τ : SupportSystem I}

omit [DecidableEq I] in
theorem DifferByNotes.symm (h : DifferByNotes requests requests') : DifferByNotes requests' requests where
  same_notes i := (h.same_notes i).symm
  same_others i hi := (h.same_others i ((h.same_notes i).symm.trans hi)).symm
  fresh := h.fresh'
  fresh' := h.fresh

omit [DecidableEq I] in
theorem Alike.symm (hd : DifferByNotes requests requests') (h : Alike requests requests' σ τ) : Alike requests' requests τ σ where
  left := h.right
  right := h.left
  toDb := h.toDb.symm
  tickets := h.tickets.symm
  messages := h.messages.symm
  calls i hi := (h.calls i ((hd.same_notes i).symm.trans hi)).symm

/-- The messages after a statement, and those of them that are not notes. -/
theorem onThread_advance (toLowercase : String → String) (call : SupportCall) (db : SupportDb) :
    onThread (call.advance toLowercase db).2 =
      onThread db ++ if call.isNote then [] else (call.posts db).toList := by
  obtain ⟨-, -, hrows⟩ := advance_messages toLowercase call db db.supportMessages fun _ _ => rfl
  rcases hposts : call.posts db with _ | message
  · rw [hposts] at hrows
    simp [onThread, hrows]
  · rw [hposts] at hrows
    obtain ⟨-, hnote, hnew⟩ := posts_spec hposts
    rw [onThread, hrows, Option.elim_some, Table.rows_insert hnew, List.filter_append, ← hnote]
    rcases hstaff : message.staffOnly with _ | _ <;> simp [onThread, hstaff]

theorem notesApart_step (hfresh : ∀ i, (requests i).isNote = true → ∀ id, (requests i).messageId = some id → OffThread requests id)
    (h : NotesApart requests σ) (e : Event I Db) : NotesApart requests (supportStep toLowercase σ e) := by
  cases e with
  | outside db => exact ⟨h.notes, h.others, h.ids, h.rows⟩
  | turn i =>
    refine ⟨fun j hj => ?_, fun j hj => ?_, fun j => ?_, fun m hm hstaff => ?_⟩
    · by_cases hji : j = i
      · subst hji
        rw [supportStep, System.calls_turn_self]
        exact (advance_of_note toLowercase _ _ (h.notes j hj)).1
      · rw [supportStep, System.calls_turn_of_ne _ _ _ hji]
        exact h.notes j hj
    · by_cases hji : j = i
      · subst hji
        rw [supportStep, System.calls_turn_self]
        rcases pending_advance toLowercase (σ.calls j) σ.store with ⟨-, hnone⟩ | ⟨-, hsame⟩
        · exact hnone
        · exact hsame.trans (h.others j hj)
      · rw [supportStep, System.calls_turn_of_ne _ _ _ hji]
        exact h.others j hj
    · by_cases hji : j = i
      · subst hji
        rw [supportStep, System.calls_turn_self]
        rcases pending_advance toLowercase (σ.calls j) σ.store with ⟨hnone, -⟩ | ⟨hsame, -⟩
        · exact .inl hnone
        · rw [hsame]
          exact h.ids j
      · rw [supportStep, System.calls_turn_of_ne _ _ _ hji]
        exact h.ids j
    · obtain ⟨-, -, hrows⟩ := advance_messages toLowercase (σ.calls i) σ.store σ.store.supportMessages fun _ _ => rfl
      rw [supportStep, System.store_turn, hrows] at hm
      rcases hposts : (σ.calls i).posts σ.store with _ | message
      · rw [hposts] at hm
        exact h.rows m hm hstaff
      · rw [hposts] at hm
        obtain ⟨hid, hnote, -⟩ := posts_spec hposts
        rcases Table.mem_insert.1 hm with hm | ⟨rfl, -⟩
        · exact h.rows m hm hstaff
        · -- only a call asked for a note inserts one
          have hasked : (requests i).isNote = true := by
            by_contra hother
            rw [h.others i (by simpa using hother)] at hnote
            rw [hnote] at hstaff
            cases hstaff
          rcases h.ids i with hnone | hsame
          · rw [hid] at hnone
            cases hnone
          · exact hfresh i hasked m.id (hsame.symm.trans hid)

omit [DecidableEq I] in
/-- An identifier that a message on the thread is to have is taken in both or in neither. -/
theorem contains_of_alike (h : Alike requests requests' σ τ) {i : I} (hd : DifferByNotes requests requests')
    (hi : (requests i).isNote = false) {id : Uuid} (hid : (requests i).messageId = some id) :
    σ.store.supportMessages.contains id = τ.store.supportMessages.contains id := by
  have htaken : ∀ {requests : I → SupportRequest} {σ : SupportSystem I}, NotesApart requests σ →
      (requests i).isNote = false → (requests i).messageId = some id →
      (σ.store.supportMessages.contains id = true ↔ ∃ m ∈ onThread σ.store, m.id = id) := by
    intro requests σ hapart hi hid
    rw [Table.contains_iff]
    constructor
    · rintro ⟨m, hm⟩
      obtain ⟨hrow, hkey⟩ := Table.find_eq_some.1 hm
      refine ⟨m, List.mem_filter.2 ⟨hrow, ?_⟩, hkey⟩
      rcases hstaff : m.staffOnly with _ | _
      · rfl
      · exact absurd (hid.trans (congrArg some hkey.symm)) (hapart.rows m hrow hstaff i hi)
    · rintro ⟨m, hm, hkey⟩
      exact ⟨m, Table.find_eq_some.2 ⟨(List.mem_filter.1 hm).1, hkey⟩⟩
  rw [Bool.eq_iff_iff, htaken h.left hi hid, h.messages,
    htaken h.right ((hd.same_notes i).trans hi) ((congrArg _ (hd.same_others i hi)).trans hid)]

theorem alike_of_note (hd : DifferByNotes requests requests') (h : Alike requests requests' σ τ) {i : I}
    (hi : (requests i).isNote = true) : Alike requests requests' (supportStep toLowercase σ (.turn i)) τ := by
  obtain ⟨-, hdb, htickets⟩ := advance_of_note toLowercase _ σ.store (h.left.notes i hi)
  refine ⟨notesApart_step hd.fresh h.left _, h.right, hdb.trans h.toDb, htickets.trans h.tickets, ?_, fun j hj => ?_⟩
  · refine Eq.trans ?_ h.messages
    rw [supportStep, System.store_turn, onThread_advance]
    rcases hnote : (σ.calls i).isNote with _ | _
    · -- a call that is over inserts nothing
      have hover : (σ.calls i).isOver = true := by simpa [hnote] using h.left.notes i hi
      have hposts : (σ.calls i).posts σ.store = none := by
        rcases hcall : σ.calls i <;> first | rfl | (rw [hcall] at hover; cases hover)
      simp [hposts]
    · simp
  · have hji : j ≠ i := by
      rintro rfl
      rw [hi] at hj
      cases hj
    rw [supportStep, System.calls_turn_of_ne _ _ _ hji]
    exact h.calls j hj

/-- The turn of a call that writes no note. -/
theorem alike_of_turn (hd : DifferByNotes requests requests') (h : Alike requests requests' σ τ) {i : I}
    (hi : (requests i).isNote = false) :
    Alike requests requests' (supportStep toLowercase σ (.turn i)) (supportStep toLowercase τ (.turn i)) := by
  have hcall := h.calls i hi
  have hsame : τ.store = { σ.store with supportMessages := τ.store.supportMessages } := by
    have hdb := h.toDb
    have htickets := h.tickets
    rcases hσ : σ.store with ⟨db, tickets, messages⟩
    rcases hτ : τ.store with ⟨db', tickets', messages'⟩
    rw [hσ, hτ] at hdb htickets
    obtain rfl : db = db' := hdb
    obtain rfl : tickets = tickets' := htickets
    rfl
  have hid : ∀ id, (σ.calls i).messageId = some id →
      τ.store.supportMessages.contains id = σ.store.supportMessages.contains id := by
    intro id hid
    rcases h.left.ids i with hnone | hasked
    · rw [hid] at hnone
      cases hnone
    · exact (contains_of_alike h hd hi (hasked.symm.trans hid)).symm
  obtain ⟨hnext, hstore, -⟩ := advance_messages toLowercase (σ.calls i) σ.store τ.store.supportMessages hid
  rw [← hsame] at hnext hstore
  refine ⟨notesApart_step hd.fresh h.left _, notesApart_step hd.fresh' h.right _, ?_, ?_, ?_, fun j hj => ?_⟩
  · rw [supportStep, System.store_turn, System.store_turn, ← hcall, hstore]
  · rw [supportStep, System.store_turn, System.store_turn, ← hcall, hstore]
  · have hposts : (σ.calls i).posts τ.store = (σ.calls i).posts σ.store := by
      have hdb := h.toDb
      rcases hfound : σ.calls i with _ | ⟨ticket, id, caller, role, body, staffOnly⟩ | _ | _ | _ | _
      case found =>
        rw [hfound] at hid
        simp only [SupportCall.posts, hid id rfl]
        rw [← hdb]
      all_goals rfl
    rw [supportStep, System.store_turn, System.store_turn, onThread_advance, onThread_advance, ← hcall, hposts, h.messages]
  · by_cases hji : j = i
    · subst hji
      rw [supportStep, System.calls_turn_self, System.calls_turn_self, ← hcall, hnext]
    · rw [supportStep, System.calls_turn_of_ne _ _ _ hji, System.calls_turn_of_ne _ _ _ hji]
      exact h.calls j hj

/-- Notes are hidden steps, and no other step tells the queues apart. -/
theorem unwinds_notes (toLowercase : String → String) (hd : DifferByNotes requests requests') :
    Unwinds (supportStep toLowercase) (noteTurn requests) (Alike requests requests') where
  hides_left := by
    rintro σ τ (i | db) hhidden h
    · exact alike_of_note hd h hhidden
    · cases hhidden
  hides_right := by
    rintro σ τ (i | db) hhidden h
    · exact (alike_of_note hd.symm (h.symm hd) ((hd.same_notes i).trans hhidden)).symm hd.symm
    · cases hhidden
  shows := by
    rintro σ τ (i | db) hhidden h
    · exact alike_of_turn hd h hhidden
    · exact ⟨notesApart_step hd.fresh h.left _, notesApart_step hd.fresh' h.right _, rfl, h.tickets, h.messages, h.calls⟩

/-! ## What is shown -/

omit [DecidableEq I] in
/-- What an account that is no staff is shown of a thread comes from the messages that are not notes. -/
theorem shown_of_onThread {db db' : SupportDb} (hm : onThread db = onThread db') (ticketId : Uuid) :
    (db.supportMessages.select fun m => m.ticketId = ticketId && (false || !m.staffOnly)) =
      db'.supportMessages.select fun m => m.ticketId = ticketId && (false || !m.staffOnly) := by
  have hshown : ∀ db : SupportDb, (db.supportMessages.select fun m => m.ticketId = ticketId && (false || !m.staffOnly)) =
      (onThread db).filter fun m => m.ticketId = ticketId := by
    intro db
    rw [onThread, List.filter_filter, Table.select]
    rfl
  rw [hshown, hshown, hm]

omit [DecidableEq I] in
theorem threadFor_of_alike (h : Alike requests requests' σ τ) (caller : UserId) {role : PlatformRole}
    (hrole : role.isStaff = false) (ticketId : Uuid) :
    threadFor caller role ticketId σ.store = threadFor caller role ticketId τ.store := by
  have hfind : findFor σ.store caller role ticketId = findFor τ.store caller role ticketId := by
    unfold findFor
    rw [h.tickets]
  unfold threadFor
  rw [hfind, hrole, shown_of_onThread h.messages]

/-- Two queues where the same is asked, the notes apart, and where the same happens in the same order, the notes apart:
everything outside the notes is the same in both. So are the tickets, what their reporters are shown of them, and how far
every call that writes no note has come, its answer included. -/
theorem notes_leave_no_trace (toLowercase : String → String) (db : Db) (hd : DifferByNotes requests requests')
    (es es' : List (Event I Db)) (hsame : purge (noteTurn requests) es = purge (noteTurn requests) es') :
    let σ := run (supportStep toLowercase) (SupportSystem.start db requests) es
    let τ := run (supportStep toLowercase) (SupportSystem.start db requests') es'
    σ.store.toDb = τ.store.toDb ∧ σ.store.supportTickets = τ.store.supportTickets ∧
    (∀ reporter, listForReporter reporter σ.store = listForReporter reporter τ.store) ∧
    (∀ caller ticketId, myTicket caller ticketId σ.store = myTicket caller ticketId τ.store) ∧
    (∀ caller role ticketId, role.isStaff = false →
      threadFor caller role ticketId σ.store = threadFor caller role ticketId τ.store) ∧
    ∀ i, (requests i).isNote = false → σ.calls i = τ.calls i := by
  intro σ τ
  have hstart : Alike requests requests' (SupportSystem.start db requests) (SupportSystem.start db requests') := by
    have hapart : ∀ requests : I → SupportRequest, NotesApart requests (SupportSystem.start db requests) := fun requests =>
      ⟨fun i hi => by rw [SupportSystem.start, SupportCall.isNote, hi]; rfl, fun i hi => hi, fun i => .inr rfl,
        fun m hm => absurd hm List.not_mem_nil⟩
    exact ⟨hapart requests, hapart requests', rfl, rfl, rfl, fun i hi => congrArg SupportCall.asked (hd.same_others i hi).symm⟩
  have h : Alike requests requests' σ τ := (unwinds_notes toLowercase hd).run hstart hsame
  refine ⟨h.toDb, h.tickets, fun reporter => ?_, fun caller ticketId => ?_, fun caller role ticketId hrole => ?_, h.calls⟩
  · unfold listForReporter
    rw [h.tickets]
  · unfold myTicket
    rw [threadFor_of_alike h caller rfl ticketId]
    unfold findFor
    rw [h.tickets]
  · exact threadFor_of_alike h caller hrole ticketId

end Runs

/-- `ana` raises a ticket and replies to it, and `root` writes a note on it. -/
def notedTicket (note : String) : Option Bool → SupportRequest
  | none => .open 7 ⟨2⟩ { kind := .help, category := "billing", subject := "a refund", details := "please" }
  | some false => .reply 8 ⟨2⟩ .user 7 "anybody?" false
  | some true => .reply 9 ⟨1⟩ .admin 7 note true

/-- `ana`, and `root` of the staff. -/
def reporterAndStaff : Db :=
  { Db.empty 0 with
    users := (Table.empty.insert { id := ⟨1⟩, handle := "root", email := "root@genzh.test", isActive := true }).insert
      { id := ⟨2⟩, handle := "ana", email := "ana@genzh.test", isActive := true } }

theorem fresh_noted (note : String) : ∀ i, (notedTicket note i).isNote = true → ∀ id, (notedTicket note i).messageId = some id →
    OffThread (notedTicket note) id := by
  rintro (_ | _ | _) hi id hid
  · cases hi
  · cases hi
  · obtain rfl := Option.some.inj hid
    rintro (_ | _ | _) hj <;> simp [notedTicket, SupportRequest.messageId, SupportRequest.isNote, PlatformRole.isStaff] at hj ⊢

theorem differByNotes_noted (note note' : String) : DifferByNotes (notedTicket note) (notedTicket note') where
  same_notes := by rintro (_ | _ | _) <;> rfl
  same_others := by rintro (_ | _ | _) hi <;> first | rfl | cases hi
  fresh := fresh_noted note
  fresh' := fresh_noted note'

/-- The note is there, and `ana` sees her reply alone, as if there had been no note. -/
theorem noted_ticket_shown :
    (run (supportStep id) (SupportSystem.start reporterAndStaff (notedTicket "a known nuisance"))
      [.turn none, .turn (some true), .turn (some false), .turn (some true), .turn (some false), .turn (some false)]).store.supportMessages.rows.map
        TicketMessage.id = [9, 8] ∧
    myTicket ⟨2⟩ 7 (run (supportStep id) (SupportSystem.start reporterAndStaff (notedTicket "a known nuisance"))
      [.turn none, .turn (some true), .turn (some false), .turn (some true), .turn (some false), .turn (some false)]).store =
    myTicket ⟨2⟩ 7 (run (supportStep id) (SupportSystem.start reporterAndStaff (notedTicket "a regular"))
      [.turn none, .turn (some false), .turn (some false), .turn (some false)]).store :=
  ⟨by decide +kernel,
    (notes_leave_no_trace id reporterAndStaff (differByNotes_noted "a known nuisance" "a regular") _ _ rfl).2.2.2.1 ⟨2⟩ 7⟩

end Genzh.Admin
