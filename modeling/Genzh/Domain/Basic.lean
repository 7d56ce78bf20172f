/-
Identifiers, instants and errors. An identifier is a UUID under a type of its own, so that a room's
is never taken for a community's. An instant is a count of microseconds since the Unix epoch, the
resolution the database keeps; the two ranges that decide whether an instant can be computed
(chrono's) and stored (PostgreSQL's) are spelled out, since a caller's duration can leave them.
-/
import Mathlib.Tactic

namespace Genzh.Domain

/-! ## Identifiers -/

abbrev Uuid := BitVec 128

structure UserId where
  uuid : Uuid
  deriving DecidableEq, Repr

structure SessionId where
  uuid : Uuid
  deriving DecidableEq, Repr

structure CommunityId where
  uuid : Uuid
  deriving DecidableEq, Repr

structure RoleId where
  uuid : Uuid
  deriving DecidableEq, Repr

structure RoomId where
  uuid : Uuid
  deriving DecidableEq, Repr

structure MessageId where
  uuid : Uuid
  deriving DecidableEq, Repr

/-- The sixteen bytes of a UUID, most significant first. -/
def Uuid.asBytes (u : Uuid) : List (BitVec 8) :=
  (List.range 16).map fun i => BitVec.ofNat 8 (u.toNat >>> (8 * (15 - i)))

/-! ## Instants and durations -/

/-- Microseconds since the Unix epoch, UTC. -/
abbrev Timestamp := Int

/-- Microseconds. -/
abbrev Duration := Int

namespace Duration

/-- `Duration::minutes`: `none` where chrono panics, on a count of milliseconds outside an `i64`. -/
def minutes (m : Int) : Option Duration :=
  if |m * 60| ≤ 9223372036854775 then some (m * 60 * 1000000) else none

/-- `Duration::hours`: `none` where chrono panics. -/
def hours (h : Int) : Option Duration :=
  if |h * 3600| ≤ 9223372036854775 then some (h * 3600 * 1000000) else none

def seconds (s : Int) : Duration := s * 1000000

end Duration

namespace Timestamp

/-- The first instant chrono represents, and the first one after the last. -/
def minUtc : Timestamp := -8334601228800 * 1000000
def endUtc : Timestamp := 8210266876800 * 1000000

/-- `DateTime + Duration`: `none` where chrono panics. -/
def add (t : Timestamp) (d : Duration) : Option Timestamp :=
  if minUtc ≤ t + d ∧ t + d < endUtc then some (t + d) else none

/-- The first instant a `TIMESTAMPTZ` column holds, 24 November 4714 BC. Its last one is after
chrono's. -/
def minColumn : Timestamp := -210866803200 * 1000000

/-- Can a `TIMESTAMPTZ` column hold it? -/
def storable (t : Timestamp) : Bool := minColumn ≤ t

end Timestamp

theorem Timestamp.add_eq_some {t t' : Timestamp} {d : Duration} (h : Timestamp.add t d = some t') : t' = t + d := by
  unfold Timestamp.add at h
  split at h
  · exact (Option.some.inj h).symm
  · cases h

/-! ## Errors -/

/-- Something the domain refuses to do. -/
inductive DomainError where
  | invalid (field : String) (reason : String)
  | notFound (entity : String)
  | conflict (entity : String)
  | permissionDenied (permission : String)
  | notAMember
  | unsupportedRoomType (roomType : String)
  | unknownPermission (key : String)
  | throttled (reason : String) (retryAfterSeconds : Nat)
  deriving DecidableEq, Repr

/-- The text of a refusal. -/
def DomainError.display : DomainError → String
  | .invalid field reason => s!"{field} is invalid: {reason}"
  | .notFound entity => s!"{entity} not found"
  | .conflict entity => s!"{entity} already exists"
  | .permissionDenied permission => s!"missing permission: {permission}"
  | .notAMember => "not a member of this community"
  | .unsupportedRoomType roomType => s!"operation not supported for {roomType} rooms"
  | .unknownPermission key => s!"unknown permission: {key}"
  | .throttled reason _ => reason

/-- Anything that can go wrong talking to PostgreSQL. -/
inductive RepositoryError where
  | notFound (entity : String)
  | conflict (constraint : String)
  | foreignKey
  | database
  deriving DecidableEq, Repr

/-- The error every application service returns. A panic unwinds out of the service and fails the
request; it is an outcome of the request like the others. -/
inductive ServiceError where
  | domain (e : DomainError)
  | repository (e : RepositoryError)
  | panicked
  deriving DecidableEq, Repr

namespace ServiceError

def notFound (entity : String) : ServiceError := .domain (.notFound entity)

def denied (permission : String) : ServiceError := .domain (.permissionDenied permission)

def invalid (field reason : String) : ServiceError := .domain (.invalid field reason)

/-- The text of an error. A panic is not one. -/
def display : ServiceError → Option String
  | domain e => some e.display
  | repository _ => some "storage failure"
  | panicked => none

end ServiceError

/-- `Err` of a domain rule, as `?` carries it into a service's result. -/
def liftDomain {α : Type} : Except DomainError α → Except ServiceError α
  | .ok a => .ok a
  | .error e => .error (.domain e)

end Genzh.Domain
