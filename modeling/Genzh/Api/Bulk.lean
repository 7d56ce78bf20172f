/-
The bulk requests of the console beside its single ones. A single suspension is refused without a reason, in the handler;
the bulk one hands on to the service whatever it was given, and the service does not ask.
-/
import Genzh.Admin.Bulk
import Genzh.Api.Suspension

namespace Genzh.Api

open Genzh.Lib Genzh.Domain Genzh.Infrastructure Genzh.Admin

/-! ## The endpoints -/

def bulkSuspendUsers (caller : UserId) (userIds : List UserId) (reason : String) : ApiM BulkReport := do
  requireAdmin caller
  let _ ← onDb .service (findUser caller)
  onDb .service (suspendMany caller userIds reason)

def bulkReinstateUsers (caller : UserId) (userIds : List UserId) : ApiM BulkReport := do
  requireAdmin caller
  let _ ← onDb .service (findUser caller)
  onDb .service (reinstateMany userIds)

inductive BulkRequest where
  | suspend (userIds : List UserId) (reason : String)
  | reinstate (userIds : List UserId)

def serveBulk (caller : UserId) : BulkRequest → ApiM BulkReport
  | .suspend userIds reason => bulkSuspendUsers caller userIds reason
  | .reinstate userIds => bulkReinstateUsers caller userIds

namespace BulkRequest

def userIds : BulkRequest → List UserId
  | suspend userIds _ => userIds
  | reinstate userIds => userIds

/-- The request for one account alone. -/
def single (target : UserId) : BulkRequest → StaffEndpoint
  | suspend _ reason => .suspend target reason
  | reinstate _ => .reinstate target

/-- What the pass does to each account. -/
def action (caller : UserId) : BulkRequest → UserId → SqlM User
  | suspend _ reason => fun target => Admin.suspend caller target reason
  | reinstate _ => Admin.reinstate

end BulkRequest

/-! ## What they should come to -/

/-- Would the console grant the request? -/
def grants (caller : UserId) (endpoint : StaffEndpoint) (w : World) : Bool := ((serveStaff caller endpoint).exec w).1.isOk

/-- The report of a bulk request says what the single requests would have come to, one after the other. -/
structure ReportsSingly (caller : UserId) (req : BulkRequest) (w w' : World) (report : BulkReport) : Prop where
  targets : report.outcomes.map (·.userId) = req.userIds.eraseDups
  tallied : report.succeeded = report.outcomes.countP (·.succeeded)
  counted : report.succeeded + report.failed = req.userIds.eraseDups.length
  singly : Along (leaves (req.action caller))
    (fun db o => (o.succeeded = true ↔ grants caller (req.single o.userId) { w with db } = true) ∧
      (o.succeeded = false → leaves (req.action caller) db o = db)) w.db report.outcomes
  left : w' = { w with db := run (leaves (req.action caller)) w.db report.outcomes }

def blank (reason : String) : Bool := (trim reason).isEmpty

/-- A bulk suspension without a reason suspends nobody. -/
def Reasoned (caller : UserId) : BulkRequest → Db → Prop
  | .suspend userIds reason, db => blank reason = true → ∀ target ∈ userIds, suspendable caller target db = false
  | .reinstate _, _ => True

/-- The account is not suspended with a blank reason. -/
def StatesReason (row : User) : Prop :=
  row.isActive = false → ∀ reason, row.suspensionReason = some reason → blank reason = false

/-- No account is suspended with a blank reason. -/
def GivesReasons (db : Db) : Prop := ∀ u row, db.users.find u = some row → StatesReason row

/-! ## The single requests -/

section Single

variable {caller : UserId} {w : World}

def refusal (role : PlatformRole) : ApiError :=
  if role.isStaff then .forbidden "platform_admin" else .domain (.notFound "resource")

theorem exec_requireAdmin_bind {α : Type} (m : ApiM α) (w : World) : (requireAdmin caller >>= fun _ => m).exec w =
    if (roleOf w.db caller).isAdmin then m.exec w else (.error (refusal (roleOf w.db caller)), w) := by
  unfold requireAdmin requireStaff refusal
  rw [bind_assoc, bind_assoc, Prog.exec_read_bind, bind_assoc, Prog.exec_ensure_bind]
  by_cases hstaff : (roleOf w.db caller).isStaff = true
  · rw [if_pos hstaff, if_pos hstaff, pure_bind, Prog.exec_ensure_bind]
  · have hadmin : ¬(roleOf w.db caller).isAdmin = true := fun h => hstaff (PlatformRole.isStaff_of_isAdmin h)
    rw [if_neg hstaff, if_neg hstaff, if_neg hadmin]

theorem contains_of_isAdmin {db : Db} (h : (roleOf db caller).isAdmin = true) : ∃ row, db.users.find caller = some row := by
  unfold roleOf at h
  rcases hf : db.users.find caller with _ | row
  · rw [hf] at h
    cases h
  · exact ⟨row, rfl⟩

/-- An administrator is there to be looked up for the audit record. -/
theorem exec_findCaller_bind {α : Type} (h : (roleOf w.db caller).isAdmin = true) (m : ApiM α) :
    (onDb .service (findUser caller) >>= fun _ => m).exec w = m.exec w := by
  obtain ⟨row, hrow⟩ := contains_of_isAdmin h
  have hfound : (onDb ApiError.service (findUser caller)).exec w = (.ok row, w) := by
    rw [exec_onDb, exec_findUser, hrow]
    rfl
  rw [Prog.exec_bind_ok hfound]

/-- What a request comes to whose caller may enforce. -/
theorem exec_onDb_bind {α β E : Type} (f : E → ApiError) (m : Prog Db E α) (b : β) (w : World) :
    (onDb f m >>= fun _ => pure b).exec w = ((m.exec w.db).1.map (fun _ => b) |>.mapError f, { w with db := (m.exec w.db).2 }) := by
  rw [Prog.exec_bind, exec_onDb]
  rcases m.exec w.db with ⟨_ | a, db⟩ <;> rfl

theorem exec_suspend (h : (roleOf w.db caller).isAdmin = true) {reason : String} (hreason : blank reason = false)
    (target : UserId) : (serveStaff caller (.suspend target reason)).exec w =
      (((suspend caller target (trim reason)).exec w.db).1.map (fun _ => ()) |>.mapError .service,
        { w with db := ((suspend caller target (trim reason)).exec w.db).2 }) := by
  have hensure : (!(trim reason).isEmpty) = true := by
    rw [Bool.not_eq_true']
    exact hreason
  unfold serveStaff
  rw [exec_requireAdmin_bind, if_pos h, Prog.exec_ensure_bind, if_pos hensure, exec_findCaller_bind h, exec_onDb_bind]

theorem exec_suspend_refused (target : UserId) {reason : String}
    (h : (roleOf w.db caller).isAdmin = false ∨ blank reason = true) :
    ∃ e, (serveStaff caller (.suspend target reason)).exec w = (.error e, w) := by
  unfold serveStaff
  rw [exec_requireAdmin_bind]
  by_cases hadmin : (roleOf w.db caller).isAdmin = true
  · have hensure : ¬(!(trim reason).isEmpty) = true := by
      rw [hadmin] at h
      rw [Bool.not_eq_true', Bool.not_eq_false]
      exact h.resolve_left Bool.noConfusion
    rw [if_pos hadmin, Prog.exec_ensure_bind, if_neg hensure]
    exact ⟨_, rfl⟩
  · rw [if_neg hadmin]
    exact ⟨_, rfl⟩

theorem exec_reinstate (h : (roleOf w.db caller).isAdmin = true) (target : UserId) :
    (serveStaff caller (.reinstate target)).exec w =
      (((reinstate target).exec w.db).1.map (fun _ => ()) |>.mapError .service,
        { w with db := ((reinstate target).exec w.db).2 }) := by
  unfold serveStaff
  rw [exec_requireAdmin_bind, if_pos h, exec_findCaller_bind h, exec_onDb_bind]

/-- A single suspension is granted where there is a reason and the service would suspend. -/
theorem grants_suspend (h : (roleOf w.db caller).isAdmin = true) (target : UserId) (reason : String) :
    grants caller (.suspend target reason) w = (!blank reason && suspendable caller target w.db) := by
  unfold grants
  -- the handler asks about the reason, the service about the two accounts
  rcases hreason : blank reason
  · rw [exec_suspend h hreason, ← isOk_suspend caller target (trim reason)]
    cases ((suspend caller target (trim reason)).exec w.db).1 <;> rfl
  · have hrefused : (roleOf w.db caller).isAdmin = false ∨ blank reason = true := .inr hreason
    obtain ⟨e, hx⟩ := exec_suspend_refused target hrefused
    rw [hx]
    rfl

theorem grants_reinstate (h : (roleOf w.db caller).isAdmin = true) (target : UserId) :
    grants caller (.reinstate target) w = w.db.users.contains target := by
  unfold grants
  rw [exec_reinstate h, ← isOk_reinstate]
  cases ((reinstate target).exec w.db).1 <;> rfl

end Single

/-! ## The reports -/

section Reports

variable {caller : UserId} {req : BulkRequest} {w w' : World} {report : BulkReport}

/-- May the caller enforce, and is the list one that a pass takes? -/
def accepts (caller : UserId) (req : BulkRequest) (db : Db) : Bool := (roleOf db caller).isAdmin && fits req.userIds

theorem serveBulk_eq (caller : UserId) (req : BulkRequest) : serveBulk caller req = (requireAdmin caller >>= fun _ =>
    onDb .service (findUser caller) >>= fun _ => onDb .service (each req.userIds (req.action caller))) := by
  cases req <;> rfl

/-- A request that is not accepted changes nothing. -/
theorem exec_serveBulk_refused (h : accepts caller req w.db = false) : ∃ e, (serveBulk caller req).exec w = (.error e, w) := by
  rw [serveBulk_eq, exec_requireAdmin_bind]
  by_cases hadmin : (roleOf w.db caller).isAdmin = true
  · have hfits : fits req.userIds = false := by
      unfold accepts at h
      rwa [hadmin, Bool.true_and] at h
    obtain ⟨e, he⟩ := exec_each_refused hfits (req.action caller) w.db
    rw [if_pos hadmin, exec_findCaller_bind hadmin, exec_onDb, he]
    exact ⟨_, rfl⟩
  · rw [if_neg hadmin]
    exact ⟨_, rfl⟩

theorem exec_serveBulk (h : accepts caller req w.db = true) :
    ∃ outcomes, (serveBulk caller req).exec w =
        (.ok (BulkReport.fromOutcomes outcomes), { w with db := run (leaves (req.action caller)) w.db outcomes }) ∧
      outcomes.map (·.userId) = req.userIds.eraseDups ∧
      Along (leaves (req.action caller)) (fun db o => o.succeeded = ((req.action caller o.userId).exec db).1.isOk) w.db
        outcomes := by
  obtain ⟨hadmin, hfits⟩ := Bool.and_eq_true_iff.1 h
  obtain ⟨outcomes, hx, htargets, halong⟩ := exec_each hfits (req.action caller) w.db
  refine ⟨outcomes, ?_, htargets, halong⟩
  rw [serveBulk_eq, exec_requireAdmin_bind, if_pos hadmin, exec_findCaller_bind hadmin, exec_onDb, hx]
  rfl

/-- The outcomes of a pass of suspensions are those of the single requests exactly if there is a reason, or nobody is
suspended. -/
theorem singly_suspend_iff (hadmin : (roleOf w.db caller).isAdmin = true) {userIds : List UserId} {reason : String}
    {outcomes : List BulkOutcome} (htargets : outcomes.map (·.userId) = userIds.eraseDups)
    (halong : Along (leaves fun target => suspend caller target reason)
      (fun db o => o.succeeded = ((suspend caller o.userId reason).exec db).1.isOk) w.db outcomes) :
    Along (leaves fun target => suspend caller target reason)
      (fun db o => (o.succeeded = true ↔ grants caller (.suspend o.userId reason) { w with db } = true) ∧
        (o.succeeded = false → leaves (fun target => suspend caller target reason) db o = db)) w.db outcomes ↔
      (blank reason = true → ∀ target ∈ userIds, suspendable caller target w.db = false) := by
  have hsame : Along (leaves fun target => suspend caller target reason)
      (fun db o => (o.succeeded = true ↔ grants caller (.suspend o.userId reason) { w with db } = true) ∧
        (o.succeeded = false → leaves (fun target => suspend caller target reason) db o = db)) w.db outcomes ↔
      Along (leaves fun target => suspend caller target reason)
        (fun _ o => blank reason = true → suspendable caller o.userId w.db = false) w.db outcomes := by
    refine along_congr_of_along (J := fun db => (roleOf db caller).isAdmin = true ∧
      ∀ target, suspendable caller target db = suspendable caller target w.db) (fun db o hj _ => ?_) (fun db o hj hk => ?_)
      ⟨hadmin, fun _ => rfl⟩ halong
    · -- a suspension changes nobody's role
      rw [leaves_suspend]
      split
      · exact ⟨by rw [roleOf_suspended]; exact hj.1, fun target => by rw [suspendable_suspended]; exact hj.2 target⟩
      · exact hj
    · rw [isOk_suspend] at hk
      have hgrants : grants caller (.suspend o.userId reason) { w with db } = (!blank reason && suspendable caller o.userId db) :=
        grants_suspend hj.1 o.userId reason
      rw [hk, hgrants, leaves_suspend, hj.2]
      cases blank reason <;> cases suspendable caller o.userId w.db <;> simp
  rw [hsame, along_forall]
  have hmem : ∀ target, target ∈ userIds ↔ ∃ o ∈ outcomes, o.userId = target := fun target => by
    rw [← List.mem_eraseDups, ← htargets, List.mem_map]
  constructor
  · intro h hblank target htarget
    obtain ⟨o, ho, rfl⟩ := (hmem target).1 htarget
    exact h o ho hblank
  · exact fun h o ho hblank => h hblank o.userId ((hmem o.userId).2 ⟨o, ho, rfl⟩)

theorem singly_reinstate (hadmin : (roleOf w.db caller).isAdmin = true) {outcomes : List BulkOutcome}
    (halong : Along (leaves reinstate) (fun db o => o.succeeded = ((reinstate o.userId).exec db).1.isOk) w.db outcomes) :
    Along (leaves reinstate) (fun db o => (o.succeeded = true ↔ grants caller (.reinstate o.userId) { w with db } = true) ∧
      (o.succeeded = false → leaves reinstate db o = db)) w.db outcomes := by
  refine along_of_along (I := fun db => (roleOf db caller).isAdmin = true) (fun db o hj hk => ⟨?_, ?_⟩) hadmin halong
  · rw [leaves_reinstate]
    split
    · rw [roleOf_reinstated]
      exact hj
    · exact hj
  · have hgrants : grants caller (.reinstate o.userId) { w with db } = db.users.contains o.userId := grants_reinstate hj o.userId
    rw [hk, isOk_reinstate, hgrants, leaves_reinstate]
    exact ⟨Iff.rfl, fun hfailed => by rw [hfailed]; rfl⟩

/-- When a bulk request says what the single ones would have come to. -/
theorem reportsSingly_iff (h : (serveBulk caller req).exec w = (.ok report, w')) :
    ReportsSingly caller req w w' report ↔ Reasoned caller req w.db := by
  have haccepts : accepts caller req w.db = true := by
    by_contra hrefused
    obtain ⟨e, he⟩ := exec_serveBulk_refused (Bool.eq_false_iff.2 hrefused)
    rw [he] at h
    cases h
  obtain ⟨outcomes, hx, htargets, halong⟩ := exec_serveBulk haccepts
  rw [hx] at h
  cases h
  have hadmin := (Bool.and_eq_true_iff.1 haccepts).1
  have hcounted : (BulkReport.fromOutcomes outcomes).succeeded + (BulkReport.fromOutcomes outcomes).failed =
      req.userIds.eraseDups.length := by
    rw [fromOutcomes_counts, ← htargets, List.length_map]
  cases req with
  | suspend userIds reason =>
    have hsingly := singly_suspend_iff hadmin htargets halong
    exact ⟨fun hreport => hsingly.1 hreport.singly, fun hreasoned => ⟨htargets, rfl, hcounted, hsingly.2 hreasoned, rfl⟩⟩
  | reinstate userIds =>
    exact ⟨fun _ => trivial, fun _ => ⟨htargets, rfl, hcounted, singly_reinstate hadmin halong, rfl⟩⟩

end Reports

/-! ## Reasons -/

section Reasons

variable {caller : UserId} {req : BulkRequest} {w : World} {db : Db}

theorem blank_trim (reason : String) : blank (trim reason) = blank reason := by
  unfold blank
  rw [trim_trim]

theorem givesReasons_of_users {db' : Db} (hu : db'.users = db.users) (h : GivesReasons db) : GivesReasons db' :=
  fun u row hrow => h u row (hu ▸ hrow)

/-- An update that gives no account a blank reason. -/
theorem givesReasons_update {t : UserId} {f : User → User} {hf} (h : GivesReasons db)
    (hrow : ∀ row, StatesReason row → StatesReason (f row)) : GivesReasons { db with users := db.users.update t f hf } := by
  intro u row hu
  have hfind : (if t = u then (db.users.find u).map f else db.users.find u) = some row := by
    rw [← Table.find_update db.users t u f hf]
    exact hu
  split at hfind
  · obtain ⟨old, hold, rfl⟩ := Option.map_eq_some_iff.1 hfind
    exact hrow old (h u old hold)
  · exact h u row hfind

theorem givesReasons_suspended {reason : String} (hreason : blank reason = false) (target : UserId) (h : GivesReasons db) :
    GivesReasons (suspended target reason db) := by
  refine givesReasons_update h fun row _ _ given hgiven => ?_
  cases hgiven
  exact hreason

theorem givesReasons_reinstated (target : UserId) (h : GivesReasons db) : GivesReasons (reinstated target db) :=
  givesReasons_update h fun _ _ hinactive => by cases hinactive

theorem givesReasons_suspend {reason : String} (hreason : blank reason = false) (target : UserId) :
    Prog.Keeps GivesReasons (suspend caller target reason) := by
  intro db h
  rw [snd_suspend]
  split
  · exact givesReasons_suspended hreason target h
  · exact h

theorem givesReasons_reinstate (target : UserId) : Prog.Keeps GivesReasons (reinstate target) := by
  intro db h
  rw [snd_reinstate]
  split
  · exact givesReasons_reinstated target h
  · exact h

theorem givesReasons_of_frames {E α : Type} {m : Prog Db E α} (hm : Prog.Frames Db.users m) : Prog.Keeps GivesReasons m :=
  Prog.Keeps.of_frames (fun _ _ hu h => givesReasons_of_users hu h) hm

theorem givesReasons_setPlatformRole (target : UserId) (role : PlatformRole) :
    Prog.Keeps GivesReasons (setPlatformRole caller target role) := by
  refine (givesReasons_of_frames (Prog.Frames.ensure _ _)).bind fun _ => ?_
  refine (givesReasons_of_frames (users_findUser _)).bind fun _ => ?_
  refine Prog.Keeps.bind (fun db h => ?_) fun _ => givesReasons_of_frames (users_findUser _)
  exact givesReasons_update h fun _ hrow => hrow

/-- No single request suspends an account without a reason. -/
theorem givesReasons_serveStaff (caller : UserId) (endpoint : StaffEndpoint) :
    Prog.Keeps (fun w => GivesReasons w.db) (serveStaff caller endpoint) := by
  have hframes : ∀ {α : Type} {m : ApiM α}, Prog.Frames World.db m → Prog.Keeps (fun w => GivesReasons w.db) m :=
    fun hm => Prog.Keeps.of_frames (fun w w' hdb h => by rw [hdb]; exact h) hm
  have hadmin := hframes (frames_requireAdmin caller)
  have hfind : ∀ u, Prog.Keeps (fun w => GivesReasons w.db) (onDb ApiError.service (findUser u)) :=
    fun u => keeps_onDb (givesReasons_of_frames (users_findUser u))
  cases endpoint with
  | findUser target =>
    exact (hframes (frames_requireStaff caller)).bind fun _ => (hfind target).bind fun _ => hframes (Prog.Frames.pure _)
  | suspend target reason =>
    intro w h
    by_cases hrefused : (roleOf w.db caller).isAdmin = false ∨ blank reason = true
    · obtain ⟨e, he⟩ := exec_suspend_refused target hrefused
      rw [he]
      exact h
    · rw [not_or, Bool.not_eq_false, Bool.not_eq_true] at hrefused
      rw [exec_suspend hrefused.1 hrefused.2]
      exact givesReasons_suspend ((blank_trim reason).trans hrefused.2) target w.db h
  | reinstate target =>
    refine hadmin.bind fun _ => (hfind caller).bind fun _ => ?_
    exact (keeps_onDb (givesReasons_reinstate target)).bind fun _ => hframes (Prog.Frames.pure _)
  | setPlatformRole target role =>
    refine hadmin.bind fun _ => (hfind caller).bind fun _ => ?_
    exact (keeps_onDb (givesReasons_setPlatformRole target role)).bind fun _ => hframes (Prog.Frames.pure _)
  | terminate r =>
    exact hadmin.bind fun _ => (hfind caller).bind fun _ => keeps_onDb (givesReasons_of_frames (Room.users_terminate r))

/-- The account is suspended, and this is why. -/
def SuspendedFor (target : UserId) (reason : String) (db : Db) : Prop :=
  ∃ row, db.users.find target = some row ∧ row.isActive = false ∧ row.suspensionReason = some reason

theorem suspendedFor_suspended {target : UserId} (reason : String) (h : suspendable caller target db = true) :
    SuspendedFor target reason (suspended target reason db) := by
  obtain ⟨row, hrow, -⟩ := (Option.any_eq_true _ _).1 (Bool.and_eq_true_iff.1 h).2
  unfold SuspendedFor
  rw [find_suspended, if_pos rfl, hrow]
  exact ⟨_, rfl, rfl, rfl⟩

/-- Whoever else is suspended for the same. -/
theorem SuspendedFor.suspended {target : UserId} {reason : String} (h : SuspendedFor target reason db) (other : UserId) :
    SuspendedFor target reason (suspended other reason db) := by
  obtain ⟨row, hrow, hinactive, hreason⟩ := h
  unfold SuspendedFor
  rw [find_suspended, hrow]
  split
  · exact ⟨_, rfl, rfl, rfl⟩
  · exact ⟨row, rfl, hinactive, hreason⟩

/-- A pass of suspensions leaves whom it suspends suspended for its reason. -/
theorem suspendedFor_run (reason : String) {outcomes : List BulkOutcome} {o : BulkOutcome} (ho : o ∈ outcomes)
    (hs : suspendable caller o.userId db = true) :
    SuspendedFor o.userId reason (run (leaves fun target => suspend caller target reason) db outcomes) := by
  obtain ⟨before, after, rfl⟩ := List.append_of_mem ho
  rw [run_append, run_cons]
  refine run_of_step (fun db o' h => ?_) ?_
  · -- the accounts after it are suspended for the same reason
    rw [leaves_suspend]
    split
    · exact h.suspended o'.userId
    · exact h
  · -- those before it change nobody's role, so it can still be suspended when its turn comes
    have hbefore : suspendable caller o.userId (run (leaves fun target => suspend caller target reason) db before) = true := by
      refine run_of_step (I := fun db => suspendable caller o.userId db = true) (fun db o' h => ?_) hs
      rw [leaves_suspend]
      split
      · rwa [suspendable_suspended]
      · exact h
    rw [leaves_suspend, if_pos hbefore]
    exact suspendedFor_suspended reason hbefore

/-- A bulk request leaves no account suspended without a reason exactly if it suspends none without. -/
theorem givesReasons_serveBulk_iff (h : GivesReasons w.db) :
    GivesReasons ((serveBulk caller req).exec w).2.db ↔ (accepts caller req w.db = true → Reasoned caller req w.db) := by
  by_cases haccepts : accepts caller req w.db = true
  · obtain ⟨outcomes, hx, htargets, -⟩ := exec_serveBulk haccepts
    rw [hx]
    have hmem : ∀ target, target ∈ req.userIds ↔ ∃ o ∈ outcomes, o.userId = target := fun target => by
      rw [← List.mem_eraseDups, ← htargets, List.mem_map]
    refine Iff.trans ?_ (forall_prop_of_true haccepts).symm
    cases req with
    | suspend userIds reason =>
      constructor
      · intro hafter hblank target htarget
        obtain ⟨o, ho, rfl⟩ := (hmem target).1 htarget
        by_contra hs
        obtain ⟨row, hrow, hinactive, hreason⟩ := suspendedFor_run reason ho (eq_true_of_ne_false hs)
        exact Bool.false_ne_true ((hafter _ row hrow hinactive reason hreason).symm.trans hblank)
      · intro hreasoned
        rcases hblank : blank reason
        · exact run_of_step (fun db o hdb => givesReasons_suspend hblank o.userId db hdb) h
        · -- nobody is suspended
          have hrefused : Along (leaves fun target => suspend caller target reason)
              (fun _ o => suspendable caller o.userId w.db = false) w.db outcomes :=
            along_forall.2 fun o ho => hreasoned hblank o.userId ((hmem o.userId).2 ⟨o, ho, rfl⟩)
          have hsame : run (leaves fun target => suspend caller target reason) w.db outcomes = w.db := by
            refine (always_of_along (I := fun db => db = w.db) (fun db o hdb hs => ?_) rfl hrefused).last
            rw [leaves_suspend, hdb, hs]
            rfl
          have hkept : GivesReasons (run (leaves fun target => suspend caller target reason) w.db outcomes) := by
            rw [hsame]
            exact h
          exact hkept
    | reinstate userIds =>
      exact ⟨fun _ => trivial, fun _ => run_of_step (fun db o hdb => givesReasons_reinstate o.userId db hdb) h⟩
  · obtain ⟨e, he⟩ := exec_serveBulk_refused (Bool.eq_false_iff.2 haccepts)
    rw [he]
    exact ⟨fun _ haccepts' => absurd haccepts' haccepts, fun _ => h⟩

end Reasons

/-! ## Runs -/

/-- A request to the console: for one account, or in bulk. -/
inductive ConsoleRequest where
  | one (caller : UserId) (endpoint : StaffEndpoint)
  | bulk (caller : UserId) (req : BulkRequest)

def consoleStep (w : World) : ConsoleRequest → World
  | .one caller endpoint => ((serveStaff caller endpoint).exec w).2
  | .bulk caller req => ((serveBulk caller req).exec w).2

/-- Is the request none that suspends somebody in bulk without a reason? -/
def StatesReasons (w : World) : ConsoleRequest → Prop
  | .one _ _ => True
  | .bulk caller req => accepts caller req w.db = true → Reasoned caller req w.db

theorem givesReasons_consoleStep_iff {w : World} (r : ConsoleRequest) (h : GivesReasons w.db) :
    GivesReasons (consoleStep w r).db ↔ StatesReasons w r := by
  cases r with
  | one caller endpoint => exact ⟨fun _ => trivial, fun _ => givesReasons_serveStaff caller endpoint w h⟩
  | bulk caller req => exact givesReasons_serveBulk_iff h

/-- A bulk request that is answered with a report reports what the single requests would have come to, one after the
other, exactly if it suspends nobody without a reason; one that is refused was not acceptable, and changes nothing. And a
run of single and bulk requests leaves nobody suspended with a blank reason exactly if all of its requests are such. -/
theorem bulk_is_singles_iff (w : World) :
    (∀ (caller : UserId) (req : BulkRequest),
      (∀ report w', (serveBulk caller req).exec w = (.ok report, w') →
        (ReportsSingly caller req w w' report ↔ Reasoned caller req w.db)) ∧
      ∀ e w', (serveBulk caller req).exec w = (.error e, w') → accepts caller req w.db = false ∧ w' = w) ∧
    ∀ rs : List ConsoleRequest, GivesReasons w.db →
      (Always consoleStep (fun w => GivesReasons w.db) w rs ↔ Along consoleStep StatesReasons w rs) := by
  refine ⟨fun caller req => ⟨fun report w' h => reportsSingly_iff h, fun e w' h => ?_⟩, fun rs h => ?_⟩
  · rcases haccepts : accepts caller req w.db
    · obtain ⟨e', he⟩ := exec_serveBulk_refused haccepts
      rw [he] at h
      cases h
      exact ⟨rfl, rfl⟩
    · obtain ⟨outcomes, hx, -, -⟩ := exec_serveBulk haccepts
      rw [hx] at h
      cases h
  · exact always_iff_along (J := fun _ => True) (I := fun w : World => GivesReasons w.db) (fun _ _ _ => trivial)
      (fun w r _ hw => givesReasons_consoleStep_iff r hw) trivial h

/-! ### A wave of spam -/

/-- An administrator, and two accounts. -/
def spamWave : World :=
  { staffed with
    db := { staffed.db with
      users := (staffed.db.users.insert (Room.account ⟨2⟩ "mal")).insert (Room.account ⟨3⟩ "eve") } }

theorem givesReasons_spamWave : GivesReasons spamWave.db := by
  have hactive : ∀ row ∈ spamWave.db.users.rows, row.isActive = true := by decide +kernel
  intro u row hrow hinactive
  rw [hactive row (Table.find_eq_some.1 hrow).1] at hinactive
  cases hinactive

/-- Both are suspended, one of them named twice, and the administrator is not; then one is reinstated. -/
theorem bulk_is_singles_spam :
    (∃ report w', (serveBulk ⟨1⟩ (.suspend [⟨2⟩, ⟨1⟩, ⟨2⟩, ⟨3⟩] "spam")).exec spamWave = (.ok report, w') ∧
      ReportsSingly ⟨1⟩ (.suspend [⟨2⟩, ⟨1⟩, ⟨2⟩, ⟨3⟩] "spam") spamWave w' report) ∧
    Always consoleStep (fun w => GivesReasons w.db) spamWave
      [.bulk ⟨1⟩ (.suspend [⟨2⟩, ⟨1⟩, ⟨2⟩, ⟨3⟩] "spam"), .one ⟨1⟩ (.reinstate ⟨3⟩)] := by
  have hspam : blank "spam" ≠ true := by decide +kernel
  constructor
  · have haccepts : accepts ⟨1⟩ (.suspend [⟨2⟩, ⟨1⟩, ⟨2⟩, ⟨3⟩] "spam") spamWave.db = true := by decide +kernel
    obtain ⟨outcomes, hx, -, -⟩ := exec_serveBulk haccepts
    exact ⟨_, _, hx, (((bulk_is_singles_iff spamWave).1 ⟨1⟩ _).1 _ _ hx).2 fun hblank => absurd hblank hspam⟩
  · exact ((bulk_is_singles_iff spamWave).2 _ givesReasons_spamWave).2
      ⟨fun _ hblank => absurd hblank hspam, trivial, trivial⟩

/-- A bulk request suspends an account for a blank, which the request for the account alone does not. -/
theorem not_bulk_is_singles :
    (¬∀ (caller : UserId) (req : BulkRequest) (w : World) (report : BulkReport) (w' : World),
      (serveBulk caller req).exec w = (.ok report, w') → ReportsSingly caller req w w' report) ∧
    ¬∀ (w : World) (rs : List ConsoleRequest), GivesReasons w.db → Always consoleStep (fun w => GivesReasons w.db) w rs := by
  have hsuspends : ¬Reasoned ⟨1⟩ (.suspend [⟨2⟩] " ") spamWave.db := by
    intro hreasoned
    have hrefused : suspendable ⟨1⟩ ⟨2⟩ spamWave.db = false := hreasoned (by decide +kernel) ⟨2⟩ List.mem_cons_self
    exact absurd hrefused (by decide +kernel)
  have haccepts : accepts ⟨1⟩ (.suspend [⟨2⟩] " ") spamWave.db = true := by decide +kernel
  constructor
  · intro h
    obtain ⟨outcomes, hx, -, -⟩ := exec_serveBulk haccepts
    exact hsuspends ((reportsSingly_iff hx).1 (h ⟨1⟩ _ spamWave _ _ hx))
  · intro h
    have hafter := (h spamWave [.bulk ⟨1⟩ (.suspend [⟨2⟩] " ")] givesReasons_spamWave).2
    exact hsuspends ((givesReasons_serveBulk_iff givesReasons_spamWave).1 hafter haccepts)

end Genzh.Api
