/-
Authority above a community: what somebody is to the platform. Each tier can do everything the one below
it can.
-/
import Genzh.Domain.Basic

namespace Genzh.Domain

/-- What somebody is to the platform, as opposed to any one community. -/
inductive PlatformRole where
  | user
  | support
  | admin
  deriving DecidableEq, Repr

namespace PlatformRole

/-- Anyone who works the support queue: support and admin both. -/
def isStaff : PlatformRole → Bool
  | .support | .admin => true
  | .user => false

/-- May suspend accounts, and change who else is staff. -/
def isAdmin : PlatformRole → Bool
  | .admin => true
  | .user | .support => false

theorem isStaff_of_isAdmin {role : PlatformRole} (h : role.isAdmin = true) : role.isStaff = true := by
  cases role with
  | admin => rfl
  | user => cases h
  | support => cases h

end PlatformRole

end Genzh.Domain
