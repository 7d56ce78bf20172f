/-
Administrators acting on each other. A staff request is let in by the role its caller has when it arrives, and the
guards of the service are about the row it reads then; the update is a statement of its own, some statements later, and
asks about nothing. No administrator can act on themselves, which keeps the last one where requests follow each other.

`administrator_remains` says when one remains where they overlap: as long as no update finds its target the only active
administrator left, which two administrators can bring about who act on each other at once.
-/
import Genzh.Api.Endpoints
import Genzh.Room.Accounts
import Genzh.Lib.Interleaving

namespace Genzh.Api

open Genzh.Lib Genzh.Domain Genzh.Infrastructure Genzh.Admin

/-! ## The statements of a request -/

/-- What is to become of an account. -/
inductive StaffChange where
  | suspend (reason : String)
  | setRole (role : PlatformRole)
  deriving DecidableEq, Repr

structure StaffRequest where
  actor : UserId
  target : UserId
  change : StaffChange
  deriving DecidableEq, Repr

namespace StaffChange

/-- A suspension needs a reason. -/
def accepted : StaffChange → Except ApiError Unit
  | suspend reason =>
    if (trim reason).isEmpty then
      .error (.badRequest "a suspension needs a reason: it is what the audit entry will say")
    else .ok ()
  | setRole _ => .ok ()

/-- What it is called to do this to oneself. -/
def selfKey : StaffChange → String
  | suspend _ => "suspend_self"
  | setRole _ => "change_own_platform_role"

/-- May it be done to an account with this role? -/
def permits (subject : PlatformRole) : StaffChange → Except ApiError Unit
  | suspend _ => if subject.isAdmin then .error (.service (.denied "suspend_admin")) else .ok ()
  | setRole _ => .ok ()

/-- The `UPDATE`. -/
def apply (target : UserId) : StaffChange → Db → Db
  | suspend reason => suspended target (trim reason)
  | setRole role => withRole target role

end StaffChange

/-- How far a request has come. One that has passed the guards is about somebody else. -/
inductive StaffCall where
  | asked (r : StaffRequest)
  | authorised (r : StaffRequest)
  | loaded (r : StaffRequest)
  | cleared (r : StaffRequest) (distinct : r.actor ≠ r.target)
  | written (target : UserId)
  | answered (result : Except ApiError User)

/-- The next statement: the caller's role, the caller's row for the audit record, the subject's row, the update, and the
row again. -/
def StaffCall.advance (call : StaffCall) (db : Db) : StaffCall × Db :=
  match call with
  | asked r =>
    if !(roleOf db r.actor).isStaff then (answered (.error (.domain (.notFound "resource"))), db)
    else if !(roleOf db r.actor).isAdmin then (answered (.error (.forbidden "platform_admin")), db)
    else
      match r.change.accepted with
      | .ok () => (authorised r, db)
      | .error e => (answered (.error e), db)
  | authorised r =>
    match db.users.find r.actor with
    | some _ => (loaded r, db)
    | none => (answered (.error (.service (.notFound "user"))), db)
  | loaded r =>
    if distinct : r.actor ≠ r.target then
      match db.users.find r.target with
      | some subject =>
        match r.change.permits subject.platformRole with
        | .ok () => (cleared r distinct, db)
        | .error e => (answered (.error e), db)
      | none => (answered (.error (.service (.notFound "user"))), db)
    else (answered (.error (.service (.denied r.change.selfKey))), db)
  | cleared r _ => (written r.target, r.change.apply r.target db)
  | written target =>
    match db.users.find target with
    | some user => (answered (.ok user), db)
    | none => (answered (.error (.service (.notFound "user"))), db)
  | answered result => (answered result, db)

/-- What else happens to the accounts. -/
inductive AccountEvent where
  | request (req : Room.Request)
  | reinstate (target : UserId)
  | rename (target : UserId) (handle : String)

def AccountEvent.apply : AccountEvent → Db → Db
  | request req, db => Room.step db req
  | reinstate target, db => reinstated target db
  | rename target handle, db => renamed target handle db

section Staff

variable {I : Type} [DecidableEq I]

abbrev StaffSystem (I : Type) := System Db I StaffCall

/-- Every request about to be authorised. -/
def StaffSystem.start (db : Db) (requests : I → StaffRequest) : StaffSystem I :=
  { store := db, calls := fun i => .asked (requests i) }

def staffStep : StaffSystem I → Lib.Event I AccountEvent → StaffSystem I :=
  System.step (fun _ => StaffCall.advance) AccountEvent.apply

end Staff

/-! ## Who administers the platform -/

/-- An administrator whose account is active. -/
def administers (user : User) : Bool := user.isActive && user.platformRole.isAdmin

/-- Is there an active administrator? -/
def administered (db : Db) : Bool := db.users.rows.any administers

/-- Is this account one? -/
def isAdministrator (db : Db) (u : UserId) : Bool := (db.users.find u).any administers

/-- Does the change leave an administrator one? -/
def StaffChange.leaves (change : StaffChange) (user : User) : Bool :=
  match change with
  | suspend _ => false
  | setRole role => user.isActive && role.isAdmin

/-- At the moment of its update the request's caller is an active administrator still, or somebody else is whom the
request is not about, or the one it is about is one afterwards. -/
def StaffRequest.harmless (r : StaffRequest) (db : Db) : Bool :=
  isAdministrator db r.actor || (db.users.rows.any fun user => user.id ≠ r.actor && user.id ≠ r.target && administers user) ||
    (db.users.find r.target).any r.change.leaves

/-- An update about to be made is harmless. -/
def StaffCall.harmless (db : Db) : StaffCall → Bool
  | cleared r _ => r.harmless db
  | _ => true

section Administered

variable {db : Db}

theorem isAdministrator_iff {u : UserId} : isAdministrator db u = true ↔ ∃ user ∈ db.users.rows, user.id = u ∧ administers user = true := by
  unfold isAdministrator
  rw [Option.any_eq_true]
  constructor
  · rintro ⟨user, hfind, h⟩
    exact ⟨user, (Table.find_eq_some.1 hfind).1, Table.find_key hfind, h⟩
  · rintro ⟨user, hmem, rfl, h⟩
    exact ⟨user, Table.mem_iff_find.1 hmem, h⟩

theorem administered_iff : administered db = true ↔ ∃ u, isAdministrator db u = true := by
  unfold administered
  rw [List.any_eq_true]
  constructor
  · rintro ⟨user, hmem, h⟩
    exact ⟨user.id, isAdministrator_iff.2 ⟨user, hmem, rfl, h⟩⟩
  · rintro ⟨u, h⟩
    obtain ⟨user, hmem, -, h⟩ := isAdministrator_iff.1 h
    exact ⟨user, hmem, h⟩

/-- An update changes one account. -/
theorem isAdministrator_apply (change : StaffChange) (target u : UserId) :
    isAdministrator (change.apply target db) u =
      if target = u then (db.users.find u).any change.leaves else isAdministrator db u := by
  unfold isAdministrator
  cases change with
  | suspend reason =>
    unfold StaffChange.apply suspended
    simp only [Table.find_update]
    split
    · cases db.users.find u <;> rfl
    · rfl
  | setRole role =>
    unfold StaffChange.apply withRole
    simp only [Table.find_update]
    split
    · cases db.users.find u <;> rfl
    · rfl

/-- A request about somebody else leaves an administrator exactly if it is harmless. -/
theorem administered_apply {r : StaffRequest} (distinct : r.actor ≠ r.target) :
    administered (r.change.apply r.target db) = true ↔ r.harmless db = true := by
  unfold StaffRequest.harmless
  rw [administered_iff, Bool.or_eq_true, Bool.or_eq_true, List.any_eq_true]
  simp only [isAdministrator_apply, Bool.and_eq_true, decide_eq_true_eq]
  constructor
  · rintro ⟨u, h⟩
    by_cases htarget : r.target = u
    · rw [if_pos htarget, ← htarget] at h
      exact .inr h
    · rw [if_neg htarget] at h
      by_cases hactor : u = r.actor
      · exact .inl (.inl (hactor ▸ h))
      · obtain ⟨user, hmem, rfl, huser⟩ := isAdministrator_iff.1 h
        exact .inl (.inr ⟨user, hmem, ⟨hactor, Ne.symm htarget⟩, huser⟩)
  · rintro ((h | ⟨user, hmem, ⟨-, hu⟩, h⟩) | h)
    · exact ⟨r.actor, by rwa [if_neg (Ne.symm distinct)]⟩
    · exact ⟨user.id, by rw [if_neg (Ne.symm hu)]; exact isAdministrator_iff.2 ⟨user, hmem, rfl, h⟩⟩
    · exact ⟨r.target, by rwa [if_pos rfl]⟩

/-- Whatever else happens takes authority from nobody. -/
theorem administered_event (e : AccountEvent) (h : administered db = true) : administered (e.apply db) = true := by
  have hupdate : ∀ {target : UserId} {f : User → User} {hf}, (∀ user, administers user = true → administers (f user) = true) →
      administered { db with users := db.users.update target f hf } = true := by
    intro target f hf hkeeps
    obtain ⟨u, hu⟩ := administered_iff.1 h
    obtain ⟨user, hfind, huser⟩ := (Option.any_eq_true _ _).1 hu
    refine administered_iff.2 ⟨u, ?_⟩
    unfold isAdministrator
    simp only [Table.find_update]
    split
    · rw [hfind]
      exact hkeeps user huser
    · rw [hfind]
      exact huser
  cases e with
  | request req =>
    by_cases hreg : req.isRegister
    · obtain ⟨user, hmem, huser⟩ := List.any_eq_true.1 h
      cases req with
      | register new =>
        change administered ((Room.register new).exec db).2 = true
        unfold Room.register
        rw [SqlM.exec_check_bind]
        split
        · exact List.any_eq_true.2 ⟨user, Table.mem_insert.2 (.inl hmem), huser⟩
        · exact h
      | _ => cases hreg
    · have hframe := Room.users_handle (Bool.eq_false_iff.2 hreg) db
      unfold administered AccountEvent.apply Room.step
      rw [hframe]
      exact h
  | reinstate target =>
    refine hupdate fun user huser => ?_
    unfold administers at huser ⊢
    rw [Bool.and_eq_true] at huser
    exact huser.2
  | rename target handle => exact hupdate fun user huser => huser

/-- A statement of a request leaves an administrator, unless it is an update that takes the last one away. -/
theorem administered_advance (call : StaffCall) (h : administered db = true) :
    administered (call.advance db).2 = true ↔ call.harmless db = true := by
  have hsame : (call.advance db).2 = db → call.harmless db = true →
      (administered (call.advance db).2 = true ↔ call.harmless db = true) := by
    intro hdb hharmless
    rw [hdb]
    exact iff_of_true h hharmless
  cases call with
  | asked r =>
    refine hsame ?_ rfl
    simp only [StaffCall.advance]
    split
    · rfl
    · split
      · rfl
      · split <;> rfl
  | authorised r =>
    refine hsame ?_ rfl
    simp only [StaffCall.advance]
    split <;> rfl
  | loaded r =>
    refine hsame ?_ rfl
    simp only [StaffCall.advance]
    split
    · split
      · split <;> rfl
      · rfl
    · rfl
  | cleared r distinct => exact administered_apply distinct
  | written target =>
    refine hsame ?_ rfl
    simp only [StaffCall.advance]
    split <;> rfl
  | answered result => exact hsame rfl rfl

end Administered

/-! ## Runs -/

section Runs

variable {I : Type} [DecidableEq I]

/-- Every update is harmless when it is made. -/
def HarmlessUpdate (σ : StaffSystem I) : Lib.Event I AccountEvent → Prop
  | .turn i => (σ.calls i).harmless σ.store = true
  | .outside _ => True

instance (σ : StaffSystem I) : ∀ e, Decidable (HarmlessUpdate σ e)
  | .turn _ => inferInstanceAs (Decidable (_ = true))
  | .outside _ => .isTrue trivial

/-- From a state with an active administrator on, however staff requests overlap: there always is one, exactly if every
update that is made finds its caller an active administrator still, or another one besides the account it is about, or
leaves that account one. -/
theorem administrator_remains (requests : I → StaffRequest) {db : Db} (h : administered db = true)
    (es : List (Lib.Event I AccountEvent)) :
    Always staffStep (fun σ => administered σ.store = true) (StaffSystem.start db requests) es ↔
      Along staffStep HarmlessUpdate (StaffSystem.start db requests) es := by
  refine always_iff_along (J := fun _ => True) (fun _ _ _ => trivial) (fun σ e _ hσ => ?_) trivial h
  cases e with
  | turn i => exact administered_advance (σ.calls i) hσ
  | outside a => exact ⟨fun _ => trivial, fun _ => administered_event a hσ⟩

end Runs

/-! ### Two administrators -/

/-- `ana` and `ben` administer the platform, and nobody else. -/
def twoAdministrators : Db :=
  { Db.empty 0 with
    users := (Table.empty.insert { Room.account ⟨2⟩ "ana" with platformRole := .admin }).insert
      { Room.account ⟨3⟩ "ben" with platformRole := .admin } }

/-- Each of them makes the other one an ordinary user. -/
def eachOther : Bool → StaffRequest
  | false => { actor := ⟨2⟩, target := ⟨3⟩, change := .setRole .user }
  | true => { actor := ⟨3⟩, target := ⟨2⟩, change := .setRole .user }

/-- One request after the other: the second is refused. -/
def inTurn : List (Lib.Event Bool AccountEvent) := List.replicate 5 (.turn false) ++ List.replicate 5 (.turn true)

/-- The second passes its guards before the first makes its update. -/
def atOnce : List (Lib.Event Bool AccountEvent) :=
  List.replicate 3 (.turn false) ++ List.replicate 3 (.turn true) ++ [.turn false, .turn true]

theorem administrator_remains_in_turn :
    Always staffStep (fun σ => administered σ.store = true) (StaffSystem.start twoAdministrators eachOther) inTurn :=
  (administrator_remains eachOther (by decide +kernel) inTurn).2 (by decide +kernel)

/-- Nobody is left. -/
theorem nobody_administers :
    administered twoAdministrators = true ∧
    administered (run staffStep (StaffSystem.start twoAdministrators eachOther) atOnce).store = false ∧
    ¬ Always staffStep (fun σ => administered σ.store = true) (StaffSystem.start twoAdministrators eachOther) atOnce := by
  have hnobody : administered (run staffStep (StaffSystem.start twoAdministrators eachOther) atOnce).store = false := by
    decide +kernel
  refine ⟨by decide +kernel, hnobody, fun h => ?_⟩
  have := h.last
  rw [hnobody] at this
  cases this

end Genzh.Api
