/-
What staff do to several accounts at once. Each account is acted on by itself, in one pass that goes on where one fails;
the report has what became of each.
-/
import Genzh.Admin.Staff
import Genzh.Lib.Batch

namespace Genzh.Admin

open Genzh.Lib Genzh.Domain Genzh.Infrastructure

/-- How many accounts a bulk pass takes. -/
def maxBulkTargets : Nat := 100

/-- What a bulk pass did to one account. -/
structure BulkOutcome where
  userId : UserId
  handle : Option String
  succeeded : Bool
  error : Option String
  deriving DecidableEq, Repr

/-- What the action on one account came to. -/
def BulkOutcome.of (target : UserId) : Except ServiceError User → BulkOutcome
  | .ok user => { userId := target, handle := some user.handle, succeeded := true, error := none }
  | .error e => { userId := target, handle := none, succeeded := false, error := e.display }

/-- The result of a bulk pass, in full. -/
structure BulkReport where
  succeeded : Nat
  failed : Nat
  outcomes : List BulkOutcome
  deriving DecidableEq, Repr

def BulkReport.fromOutcomes (outcomes : List BulkOutcome) : BulkReport :=
  let succeeded := outcomes.countP (·.succeeded)
  { succeeded, failed := outcomes.length - succeeded, outcomes }

/-- Apply an action to each target, collecting outcomes rather than stopping. -/
def each (targets : List UserId) (action : UserId → SqlM User) : SqlM BulkReport := do
  Prog.ensure (!targets.isEmpty) (.invalid "targets" "select at least one account")
  Prog.ensure (targets.length ≤ maxBulkTargets) (.invalid "targets" s!"at most {maxBulkTargets} accounts at a time")
  let results ← Prog.collect action targets
  pure (BulkReport.fromOutcomes (results.map fun r => BulkOutcome.of r.1 r.2))

/-- Suspend several accounts in one pass. -/
def suspendMany (actor : UserId) (targets : List UserId) (reason : String) : SqlM BulkReport :=
  each targets fun target => suspend actor target reason

/-- Lift suspensions on several accounts in one pass. -/
def reinstateMany (targets : List UserId) : SqlM BulkReport := each targets reinstate

/-! ## A pass -/

/-- Is the list one that a pass takes? -/
def fits (targets : List UserId) : Bool := !targets.isEmpty && decide (targets.length ≤ maxBulkTargets)

theorem userId_of (target : UserId) (result : Except ServiceError User) : (BulkOutcome.of target result).userId = target := by
  cases result <;> rfl

theorem succeeded_of (target : UserId) (result : Except ServiceError User) :
    (BulkOutcome.of target result).succeeded = result.isOk := by
  cases result <;> rfl

theorem fromOutcomes_counts (outcomes : List BulkOutcome) :
    (BulkReport.fromOutcomes outcomes).succeeded + (BulkReport.fromOutcomes outcomes).failed = outcomes.length :=
  Nat.add_sub_cancel' List.countP_le_length

/-- What the action on an account leaves. -/
def leaves (action : UserId → SqlM User) (db : Db) (o : BulkOutcome) : Db := ((action o.userId).exec db).2

/-- A list that does not fit is refused as a whole. -/
theorem exec_each_refused {targets : List UserId} (h : fits targets = false) (action : UserId → SqlM User) (db : Db) :
    ∃ e, (each targets action).exec db = (.error e, db) := by
  unfold each
  rw [Prog.exec_ensure_bind]
  split
  · rename_i hsome
    rw [Prog.exec_ensure_bind, if_neg (by simpa [fits, hsome] using h)]
    exact ⟨_, rfl⟩
  · exact ⟨_, rfl⟩

/-- A list that fits is passed over: each account once, the outcome what the action on it comes to by itself. -/
theorem exec_each {targets : List UserId} (h : fits targets = true) (action : UserId → SqlM User) (db : Db) :
    ∃ outcomes, (each targets action).exec db = (.ok (BulkReport.fromOutcomes outcomes), run (leaves action) db outcomes) ∧
      outcomes.map (·.userId) = targets.eraseDups ∧
      Along (leaves action) (fun db o => o.succeeded = ((action o.userId).exec db).1.isOk) db outcomes := by
  obtain ⟨hsome, hfew⟩ := Bool.and_eq_true_iff.1 h
  obtain ⟨results, hresults, htargets, halong⟩ := Prog.exec_collect action targets db
  have hleaves : (fun db (r : UserId × Except ServiceError User) => leaves action db (BulkOutcome.of r.1 r.2)) =
      Prog.left action := by
    funext db r
    rw [leaves, userId_of]
    rfl
  refine ⟨results.map fun r => BulkOutcome.of r.1 r.2, ?_, ?_, ?_⟩
  · unfold each
    rw [Prog.exec_ensure_bind, if_pos hsome, Prog.exec_ensure_bind, if_pos hfew, Prog.exec_bind_ok hresults, run_map, hleaves]
    rfl
  · rw [List.map_map, ← htargets]
    exact List.map_congr_left fun r _ => userId_of r.1 r.2
  · rw [along_map, hleaves]
    exact halong.mono fun db r hr => by rw [succeeded_of, userId_of, hr]

/-! ## The actions by themselves -/

theorem find_suspended (target u : UserId) (reason : String) (db : Db) : (suspended target reason db).users.find u =
    if target = u then (db.users.find u).map fun row =>
      { row with isActive := false, suspendedAt := some db.now, suspensionReason := some reason }
    else db.users.find u := by
  unfold suspended
  rw [Table.find_update]

theorem find_reinstated (target u : UserId) (db : Db) : (reinstated target db).users.find u =
    if target = u then (db.users.find u).map fun row =>
      { row with isActive := true, suspendedAt := none, suspensionReason := none }
    else db.users.find u := by
  unfold reinstated
  rw [Table.find_update]

/-- May the actor suspend the account? -/
def suspendable (actor target : UserId) (db : Db) : Bool :=
  decide (actor ≠ target) && (db.users.find target).any fun row => !row.platformRole.isAdmin

theorem suspend_cases (actor target : UserId) (reason : String) (db : Db) :
    (suspendable actor target db = true ∧
      ∃ user, (suspend actor target reason).exec db = (.ok user, suspended target reason db)) ∨
    (suspendable actor target db = false ∧ ∃ e, (suspend actor target reason).exec db = (.error e, db)) := by
  unfold suspend suspendable
  rw [Prog.exec_ensure_bind]
  by_cases hself : actor ≠ target
  · rw [decide_eq_true hself, if_pos rfl, exec_findUser_bind]
    rcases hf : db.users.find target with _ | row
    · exact .inr ⟨rfl, _, rfl⟩
    · simp only [Prog.exec_ensure_bind]
      by_cases hadmin : row.platformRole.isAdmin = true
      · exact .inr ⟨by simp [hadmin], _, by rw [if_neg (by simp [hadmin])]⟩
      · refine .inl ⟨by simp [hadmin], ?_⟩
        rw [if_pos (by simp [hadmin]), Prog.exec_modify_bind, exec_findUser, find_suspended, if_pos rfl, hf]
        exact ⟨_, rfl⟩
  · rw [decide_eq_false hself]
    exact .inr ⟨rfl, _, rfl⟩

theorem reinstate_cases (target : UserId) (db : Db) :
    (db.users.contains target = true ∧ ∃ user, (reinstate target).exec db = (.ok user, reinstated target db)) ∨
    (db.users.contains target = false ∧ ∃ e, (reinstate target).exec db = (.error e, db)) := by
  unfold reinstate
  rw [exec_findUser_bind]
  rcases hf : db.users.find target with _ | row
  · exact .inr ⟨Table.contains_eq_false.2 hf, _, rfl⟩
  · refine .inl ⟨Table.contains_iff.2 ⟨row, hf⟩, ?_⟩
    simp only [Prog.exec_modify_bind, exec_findUser, find_reinstated, if_pos, hf]
    exact ⟨_, rfl⟩

theorem isOk_suspend (actor target : UserId) (reason : String) (db : Db) :
    ((suspend actor target reason).exec db).1.isOk = suspendable actor target db := by
  rcases suspend_cases actor target reason db with ⟨hs, user, hx⟩ | ⟨hs, e, hx⟩ <;> rw [hx, hs] <;> rfl

theorem snd_suspend (actor target : UserId) (reason : String) (db : Db) :
    ((suspend actor target reason).exec db).2 = if suspendable actor target db then suspended target reason db else db := by
  rcases suspend_cases actor target reason db with ⟨hs, user, hx⟩ | ⟨hs, e, hx⟩ <;> rw [hx, hs] <;> rfl

theorem leaves_suspend (actor : UserId) (reason : String) (db : Db) (o : BulkOutcome) :
    leaves (fun target => suspend actor target reason) db o =
      if suspendable actor o.userId db then suspended o.userId reason db else db :=
  snd_suspend actor o.userId reason db

theorem isOk_reinstate (target : UserId) (db : Db) : ((reinstate target).exec db).1.isOk = db.users.contains target := by
  rcases reinstate_cases target db with ⟨hc, user, hx⟩ | ⟨hc, e, hx⟩ <;> rw [hx, hc] <;> rfl

theorem snd_reinstate (target : UserId) (db : Db) :
    ((reinstate target).exec db).2 = if db.users.contains target then reinstated target db else db := by
  rcases reinstate_cases target db with ⟨hc, user, hx⟩ | ⟨hc, e, hx⟩ <;> rw [hx, hc] <;> rfl

theorem leaves_reinstate (db : Db) (o : BulkOutcome) :
    leaves reinstate db o = if db.users.contains o.userId then reinstated o.userId db else db :=
  snd_reinstate o.userId db

/-! ### Who may act, and on whom -/

theorem roleOf_suspended (target u : UserId) (reason : String) (db : Db) :
    roleOf (suspended target reason db) u = roleOf db u := by
  unfold roleOf
  rw [find_suspended]
  split
  · cases db.users.find u <;> rfl
  · rfl

theorem suspendable_suspended (target actor u : UserId) (reason : String) (db : Db) :
    suspendable actor u (suspended target reason db) = suspendable actor u db := by
  unfold suspendable
  rw [find_suspended]
  split
  · cases db.users.find u <;> rfl
  · rfl

theorem roleOf_reinstated (target u : UserId) (db : Db) : roleOf (reinstated target db) u = roleOf db u := by
  unfold roleOf
  rw [find_reinstated]
  split
  · cases db.users.find u <;> rfl
  · rfl

end Genzh.Admin
