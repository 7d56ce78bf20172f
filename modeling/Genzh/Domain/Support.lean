/-
Reports and help requests: one object for both, since to whoever handles it they have the same shape. Something arrives,
somebody picks it up, somebody answers it, it ends.
-/
import Genzh.Domain.Text
import Genzh.Domain.Basic

namespace Genzh.Domain

/-! ## Texts -/

def ticketSubjectMaxLen : Nat := 140
def ticketBodyMaxLen : Nat := 4000
def ticketCategoryMaxLen : Nat := 48

/-- A text that is not empty and not too long. -/
def boundedText (field : String) (maxLen : Nat) (text : String) : Except DomainError String :=
  if text.isEmpty || maxLen < text.length then .error (.invalid field s!"must be between 1 and {maxLen} characters")
  else .ok text

/-- Trim and bound a subject line. -/
def validateSubject (raw : String) : Except DomainError String := boundedText "subject" ticketSubjectMaxLen (trim raw)

/-- Trim and bound a ticket body or reply. -/
def validateBody (raw : String) : Except DomainError String := boundedText "body" ticketBodyMaxLen (trim raw)

/-- Trim and bound a report category. It is kept in lower case, so that one category is one. -/
def validateCategory (toLowercase : String → String) (raw : String) : Except DomainError String :=
  boundedText "category" ticketCategoryMaxLen (toLowercase (trim raw))

/-- What is accepted is the text, within the bounds. -/
theorem boundedText_ok {field : String} {maxLen : Nat} {text accepted : String} (h : boundedText field maxLen text = .ok accepted) :
    accepted = text ∧ 0 < text.length ∧ text.length ≤ maxLen := by
  unfold boundedText at h
  obtain ⟨hbounds, hok⟩ := refuse_eq_ok.1 h
  simp only [Bool.or_eq_true, String.isEmpty_iff, decide_eq_true_eq, not_or, not_lt] at hbounds
  exact ⟨(Except.ok.inj hok).symm, Nat.pos_of_ne_zero fun hzero => hbounds.1 (String.length_eq_zero_iff.1 hzero), hbounds.2⟩

/-! ## Tickets -/

/-- Why the ticket exists. -/
inductive TicketKind where
  | report
  | help
  deriving DecidableEq, Repr

/-- Where a ticket is in its life. -/
inductive TicketStatus where
  | «open»
  | pending
  | resolved
  | closed
  deriving DecidableEq, Repr

/-- Is this ticket finished with? -/
def TicketStatus.isTerminal : TicketStatus → Bool
  | resolved | closed => true
  | .open | pending => false

/-- What a report points at. -/
inductive SubjectType where
  | message
  | user
  | room
  | community
  deriving DecidableEq, Repr

/-- A ticket as stored. -/
structure Ticket where
  id : Uuid
  kind : TicketKind
  reporterId : UserId
  subjectType : Option SubjectType
  subjectId : Option Uuid
  category : String
  subject : String
  details : String
  status : TicketStatus
  assigneeId : Option UserId
  createdAt : Timestamp
  updatedAt : Timestamp
  resolvedAt : Option Timestamp
  deriving DecidableEq, Repr

/-- One message on a ticket's thread. -/
structure TicketMessage where
  id : Uuid
  ticketId : Uuid
  authorId : Option UserId
  body : String
  staffOnly : Bool
  createdAt : Timestamp
  deriving DecidableEq, Repr

end Genzh.Domain
