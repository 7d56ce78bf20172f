/-
The rules on what an account is made of: handle, e-mail address, display name, password. Handles and
addresses are stored in lower case; what lower case is for a character outside ASCII comes from outside,
as a function of the text.
-/
import Genzh.Domain.Text

namespace Genzh.Domain

def handleMinLen : Nat := 3
def handleMaxLen : Nat := 32
def displayNameMaxLen : Nat := 48
def passwordMinLen : Nat := 10

/-- The characters a handle is made of. -/
def isHandleLetter (c : Char) : Bool := c.isAlphanum || c == '_' || c == '.'

/-- Normalise and validate a handle. -/
def normalizeHandle (toLowercase : String → String) (raw : String) : Except DomainError String :=
  let handle := toLowercase (trim raw)
  if handle.length < handleMinLen || handleMaxLen < handle.length then
    .error (.invalid "handle" s!"must be between {handleMinLen} and {handleMaxLen} characters")
  else if !handle.toList.all isHandleLetter then
    .error (.invalid "handle" "may only contain letters, digits, '_' and '.'")
  else if handle.toList.head? = some '.' || handle.toList.getLast? = some '.' then
    .error (.invalid "handle" "may not start or end with '.'")
  else .ok handle

/-- Is it something before and something after the only `@`, with a full stop in the latter? -/
def isAddress (email : String) : Bool :=
  match email.toList.splitOn '@' with
  | [mailbox, host] => !mailbox.isEmpty && !host.isEmpty && host.contains '.'
  | _ => false

/-- Normalise and validate an e-mail address. -/
def normalizeEmail (toLowercase : String → String) (raw : String) : Except DomainError String :=
  let email := toLowercase (trim raw)
  if !isAddress email then .error (.invalid "email" "must be a valid e-mail address")
  else if 254 < email.utf8ByteSize then .error (.invalid "email" "must be at most 254 characters")
  else .ok email

/-- Validate a display name. -/
def validateDisplayName (raw : String) : Except DomainError String :=
  let name := trim raw
  if name.isEmpty || displayNameMaxLen < name.length then
    .error (.invalid "display_name" s!"must be between 1 and {displayNameMaxLen} characters")
  else .ok name

/-- Validate a plaintext password before hashing. -/
def validatePassword (raw : String) : Except DomainError Unit :=
  if raw.length < passwordMinLen then
    .error (.invalid "password" s!"must be at least {passwordMinLen} characters")
  else if 1024 < raw.utf8ByteSize then .error (.invalid "password" "must be at most 1024 bytes")
  else .ok ()

/-! ## What is accepted -/

variable {toLowercase : String → String}

theorem normalizeHandle_ok {raw handle : String} (h : normalizeHandle toLowercase raw = .ok handle) :
    handle = toLowercase (trim raw) ∧ handle.length ≤ handleMaxLen ∧ handle.toList.all isHandleLetter = true := by
  unfold normalizeHandle at h
  simp only [refuse_eq_ok, Bool.or_eq_true, decide_eq_true_eq, not_or, not_lt, Bool.not_eq_true', Bool.not_eq_false] at h
  obtain ⟨hlength, hletters, -, hok⟩ := h
  cases hok
  exact ⟨rfl, hlength.2, hletters⟩

theorem normalizeEmail_ok {raw email : String} (h : normalizeEmail toLowercase raw = .ok email) :
    email = toLowercase (trim raw) ∧ isAddress email = true := by
  unfold normalizeEmail at h
  simp only [refuse_eq_ok, Bool.not_eq_true', Bool.not_eq_false] at h
  obtain ⟨haddress, -, hok⟩ := h
  cases hok
  exact ⟨rfl, haddress⟩

/-- An address has exactly one `@`. -/
theorem mem_of_isAddress {email : String} (h : isAddress email = true) : '@' ∈ email.toList := by
  unfold isAddress at h
  by_contra hno
  rw [List.splitOn_eq_singleton hno] at h
  cases h

/-- No handle is an address. -/
theorem not_isAddress_of_handle {raw handle : String} (h : normalizeHandle toLowercase raw = .ok handle) :
    isAddress handle = false := by
  by_contra ha
  have hat := mem_of_isAddress (Bool.of_not_eq_false ha)
  have := List.all_eq_true.1 (normalizeHandle_ok h).2.2 _ hat
  exact absurd this (by decide)

end Genzh.Domain
