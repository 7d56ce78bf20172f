/-
Refreshes, sign-ins and log-outs that run at the same time, one statement of one of them after the other.
A refresh is four statements (look the token up, look the account up, revoke the old session, insert the
new one), or two where the token turns out to be revoked; a sign-in ends with the insertion of a session;
a log-out is a lookup and a revocation. By itself each call is the call of the session manager.
-/
import Genzh.Auth.Sessions
import Genzh.Lib.Interleaving

namespace Genzh.Auth

open Genzh.Lib Genzh.Domain Genzh.Infrastructure

/-- What a client asks for. -/
inductive Request where
  | refresh (refreshToken : String) (draw : Draw)
  | signIn (userId : UserId) (draw : Draw)
  | logOut (refreshToken : String)
  deriving DecidableEq, Repr

/-- How far a call has come. -/
inductive Call where
  | waiting (request : Request)
  /-- The token is of a revoked session; every session of the account is revoked next. -/
  | reusing (session : Session)
  /-- The session is usable; the account is looked up next. -/
  | found (session : Session) (draw : Draw)
  /-- The account is active; the session is revoked next. -/
  | cleared (session : Session) (draw : Draw)
  /-- The session is revoked; a new one is inserted next. -/
  | rotated (session : Session) (draw : Draw)
  /-- A log-out that knows its session; it is revoked next. -/
  | leaving (session : Session)
  /-- The session `parent` has been exchanged for `child`. -/
  | renewed (parent child : SessionId) (outcome : Except AuthError TokenPair)
  | signedIn (session : SessionId) (outcome : Except AuthError TokenPair)
  | reported (session : Session)
  | loggedOut
  | refused (e : AuthError)
  deriving DecidableEq

namespace Call

/-- What a finished call has returned; a log-out returns nothing. -/
def outcome : Call → Option (Except AuthError TokenPair)
  | renewed _ _ outcome | signedIn _ outcome => some outcome
  | reported _ => some (.error .invalidSession)
  | refused e => some (.error e)
  | _ => none

/-- The session a finished call has started. -/
def started : Call → Option SessionId
  | renewed _ child _ => some child
  | signedIn session _ => some session
  | _ => none

end Call

section Advance

variable (jwt : JwtService)

/-- The insertion of a new session, and the pair for it. -/
def starting (userId : UserId) (draw : Draw) (done : Except AuthError TokenPair → Call) (db : Db) : Call × Db :=
  match newSession jwt userId draw db.now with
  | none => (.refused .panicked, db)
  | some session =>
    match (createSession session).exec db with
    | (.error e, db') => (.refused e, db')
    | (.ok _, db') => (done (orPanic (tokenPair jwt userId draw db'.now)), db')

/-- The next statement of a call, and what it computes up to the one after. -/
def advance : Call → Db → Call × Db
  | .waiting (.refresh token draw), db =>
    match presented jwt db token with
    | .error e => (.refused e, db)
    | .ok (session, true) => (.reusing session, db)
    | .ok (session, false) => (.found session draw, db)
  | .waiting (.signIn userId draw), db => starting jwt userId draw (.signedIn draw.sessionId) db
  | .waiting (.logOut token), db =>
    match findByTokenHash db (jwt.hashRefreshToken token) with
    | none => (.loggedOut, db)
    | some session => (.leaving session, db)
  | .reusing session, db => (.reported session, revokedAll session.userId db)
  | .found session draw, db =>
    match checkAccount db session.userId with
    | .error e => (.refused e, db)
    | .ok _ => (.cleared session draw, db)
  | .cleared session draw, db => (.rotated session draw, revoked session.id db)
  | .rotated session draw, db => starting jwt session.userId draw (.renewed session.id draw.sessionId) db
  | .leaving session, db => (.loggedOut, revoked session.id db)
  | .renewed parent child outcome, db => (.renewed parent child outcome, db)
  | .signedIn session outcome, db => (.signedIn session outcome, db)
  | .reported session, db => (.reported session, db)
  | .loggedOut, db => (.loggedOut, db)
  | .refused e, db => (.refused e, db)

variable {I : Type} [DecidableEq I]

/-- One event of the calls on the database. -/
abbrev Sessions (I : Type) := System Db I Call

def step : Sessions I → Event I Timestamp → Sessions I := System.step (fun _ => advance jwt) Db.tick

/-- The calls of these requests, none of which has begun. -/
def begin (db : Db) (requests : I → Request) : Sessions I := { store := db, calls := fun i => .waiting (requests i) }

end Advance

/-! ## A call by itself -/

section Alone

variable (jwt : JwtService) (db : Db)

theorem starting_start (userId : UserId) (draw : Draw) (done : Except AuthError TokenPair → Call)
    (hdone : ∀ o, (done o).outcome = some o) :
    (starting jwt userId draw done db).1.outcome = some ((start jwt userId draw).exec db).1 ∧
      (starting jwt userId draw done db).2 = ((start jwt userId draw).exec db).2 := by
  unfold starting start
  rw [Prog.exec_query_bind]
  rcases newSession jwt userId draw db.now with _ | s
  · exact ⟨rfl, rfl⟩
  · simp only [orPanic, Prog.exec_bind]
    rcases (createSession s).exec db with ⟨e | _, db'⟩
    · exact ⟨rfl, rfl⟩
    · exact ⟨hdone _, rfl⟩

/-- By itself, a refresh is over after four statements, with the outcome and the database of the session
manager's. -/
theorem refresh_alone {I : Type} (i : I) (token : String) (draw : Draw) :
    (System.alone (fun _ => advance jwt) i 4 (.waiting (.refresh token draw)) db).1.outcome =
        some ((refresh jwt token draw).exec db).1 ∧
      (System.alone (fun _ => advance jwt) i 4 (.waiting (.refresh token draw)) db).2 =
        ((refresh jwt token draw).exec db).2 := by
  unfold refresh
  rw [Prog.exec_query_bind]
  simp only [System.alone, Function.iterate_succ, Function.iterate_zero, Function.comp_apply, id, advance]
  rcases presented jwt db token with e | ⟨session, _ | _⟩
  · exact ⟨rfl, rfl⟩
  · simp only [Bool.false_eq_true, if_false, Prog.exec_query_bind]
    rcases checkAccount db session.userId with e | _
    · exact ⟨rfl, rfl⟩
    · exact starting_start jwt _ session.userId draw _ fun _ => rfl
  · exact ⟨rfl, rfl⟩

theorem signIn_alone {I : Type} (i : I) (userId : UserId) (draw : Draw) :
    (System.alone (fun _ => advance jwt) i 1 (.waiting (.signIn userId draw)) db).1.outcome =
        some ((start jwt userId draw).exec db).1 ∧
      (System.alone (fun _ => advance jwt) i 1 (.waiting (.signIn userId draw)) db).2 =
        ((start jwt userId draw).exec db).2 :=
  starting_start jwt db userId draw _ fun _ => rfl

theorem logOut_alone {I : Type} (i : I) (token : String) :
    System.alone (fun _ => advance jwt) i 2 (.waiting (.logOut token)) db =
      (.loggedOut, ((endSession jwt token).exec db).2) := by
  unfold endSession
  rw [Prog.exec_read_bind]
  simp only [System.alone, Function.iterate_succ, Function.iterate_zero, Function.comp_apply, id, advance]
  rcases findByTokenHash db (jwt.hashRefreshToken token) with _ | session <;> rfl

end Alone

/-! ## What a statement does -/

/-- A session inserted. -/
def inserted (s : Session) (db : Db) : Db := { db with sessions := db.sessions.insert { s with createdAt := db.now } }

theorem exec_createSession (s : Session) (db : Db) :
    (insertable s db = true ∧ (createSession s).exec db = (.ok { s with createdAt := db.now }, inserted s db)) ∨
    ∃ e, (createSession s).exec db = (.error e, db) := by
  unfold createSession insertable check
  simp only [Prog.exec_bind, Prog.exec_read, Prog.exec_ensure, Prog.exec_modify, Prog.exec_pure]
  by_cases h1 : s.expiresAt.storable = true
  · by_cases h2 : (!db.sessions.contains s.id && db.sessions.rows.all fun t => t.refreshTokenHash ≠ s.refreshTokenHash) = true
    · by_cases h3 : db.userExists s.userId = true
      · simp only [h1, h2, h3, if_true]
        exact .inl ⟨rfl, rfl⟩
      · simp only [h1, h2, h3, if_true]
        exact .inr ⟨_, rfl⟩
    · simp only [h1, h2, if_true]
      exact .inr ⟨_, rfl⟩
  · simp only [h1]
    exact .inr ⟨_, rfl⟩

theorem newSession_some {jwt : JwtService} {userId : UserId} {draw : Draw} {now : Timestamp} {s : Session}
    (h : newSession jwt userId draw now = some s) :
    s.id = draw.sessionId ∧ s.userId = userId ∧ s.revokedAt = none ∧
      s.refreshTokenHash = jwt.hashRefreshToken draw.refreshToken := by
  obtain ⟨expiresAt, -, rfl⟩ := Option.map_eq_some_iff.1 h
  exact ⟨rfl, rfl, rfl, rfl⟩

theorem tokenPair_some {jwt : JwtService} {userId : UserId} {draw : Draw} {now : Timestamp} {tokens : TokenPair}
    (h : tokenPair jwt userId draw now = some tokens) :
    tokens.accessToken.sub = userId ∧ tokens.accessToken.sid = draw.sessionId ∧ tokens.refreshToken = draw.refreshToken := by
  obtain ⟨claims, hclaims, rfl⟩ := Option.map_eq_some_iff.1 h
  obtain ⟨expiry, -, rfl⟩ := Option.map_eq_some_iff.1 hclaims
  exact ⟨rfl, rfl, rfl⟩

/-- A session is started, which inserts its row, or nothing is written. -/
theorem start_cases (jwt : JwtService) (userId : UserId) (draw : Draw) (db : Db) :
    (∃ e, (start jwt userId draw).exec db = (.error e, db)) ∨
    ∃ s, newSession jwt userId draw db.now = some s ∧ insertable s db = true ∧
      (start jwt userId draw).exec db = (orPanic (tokenPair jwt userId draw db.now), inserted s db) := by
  unfold start
  rw [Prog.exec_query_bind]
  rcases hn : newSession jwt userId draw db.now with _ | s
  · exact .inl ⟨_, rfl⟩
  · rcases exec_createSession s db with ⟨hi, hx⟩ | ⟨e, hx⟩
    · right
      refine ⟨s, rfl, hi, ?_⟩
      simp only [orPanic]
      rw [Prog.exec_bind, hx]
      rfl
    · left
      refine ⟨e, ?_⟩
      simp only [orPanic]
      rw [Prog.exec_bind, hx]

/-- What the statements of the calls do: from a call's state to its next one, and to the database. -/
inductive Statement (jwt : JwtService) (db : Db) : Call → Call → Db → Prop where
  | reuse {token : String} {draw : Draw} {session : Session}
      (hfind : findByTokenHash db (jwt.hashRefreshToken token) = some session) (hrevoked : session.revokedAt.isSome = true) :
      Statement jwt db (.waiting (.refresh token draw)) (.reusing session) db
  | find {token : String} {draw : Draw} {session : Session}
      (hfind : findByTokenHash db (jwt.hashRefreshToken token) = some session)
      (husable : isUsable session db.now = true) :
      Statement jwt db (.waiting (.refresh token draw)) (.found session draw) db
  | clear {session : Session} {draw : Draw} (hactive : checkAccount db session.userId = .ok ()) :
      Statement jwt db (.found session draw) (.cleared session draw) db
  | rotate {session : Session} {draw : Draw} :
      Statement jwt db (.cleared session draw) (.rotated session draw) (revoked session.id db)
  | renew {session s : Session} {draw : Draw} {outcome : Except AuthError TokenPair} (hid : s.id = draw.sessionId)
      (huser : s.userId = session.userId) (hlive : s.revokedAt = none) (hinsert : insertable s db = true) :
      Statement jwt db (.rotated session draw) (.renewed session.id draw.sessionId outcome) (inserted s db)
  | signIn {userId : UserId} {s : Session} {draw : Draw} {outcome : Except AuthError TokenPair} (hid : s.id = draw.sessionId)
      (huser : s.userId = userId) (hlive : s.revokedAt = none) (hinsert : insertable s db = true) :
      Statement jwt db (.waiting (.signIn userId draw)) (.signedIn draw.sessionId outcome) (inserted s db)
  | leave {token : String} {session : Session} :
      Statement jwt db (.waiting (.logOut token)) (.leaving session) db
  | logOut {session : Session} : Statement jwt db (.leaving session) .loggedOut (revoked session.id db)
  | report {session : Session} : Statement jwt db (.reusing session) (.reported session) (revokedAll session.userId db)
  | refuse {c : Call} {e : AuthError} : Statement jwt db c (.refused e) db
  | unknown {token : String} : Statement jwt db (.waiting (.logOut token)) .loggedOut db
  | rest {c : Call} : Statement jwt db c c db

theorem starting_cases (jwt : JwtService) (userId : UserId) (draw : Draw) (done : Except AuthError TokenPair → Call) (db : Db) :
    (∃ e, starting jwt userId draw done db = (.refused e, db)) ∨
    ∃ s outcome, s.id = draw.sessionId ∧ s.userId = userId ∧ s.revokedAt = none ∧ insertable s db = true ∧
      starting jwt userId draw done db = (done outcome, inserted s db) := by
  unfold starting
  rcases hn : newSession jwt userId draw db.now with _ | s
  · exact .inl ⟨_, rfl⟩
  · have hs : s.id = draw.sessionId ∧ s.userId = userId ∧ s.revokedAt = none := by
      obtain ⟨expiresAt, -, rfl⟩ := Option.map_eq_some_iff.1 hn
      exact ⟨rfl, rfl, rfl⟩
    rcases exec_createSession s db with ⟨hi, hx⟩ | ⟨e, hx⟩
    · exact .inr ⟨s, _, hs.1, hs.2.1, hs.2.2, hi, by simp only [hx]; rfl⟩
    · exact .inl ⟨e, by simp only [hx]⟩

theorem findByTokenHash_some {db : Db} {hash : String} {session : Session} (h : findByTokenHash db hash = some session) :
    db.sessions.find session.id = some session ∧ session.refreshTokenHash = hash := by
  refine ⟨Table.mem_iff_find.1 (List.mem_of_find?_eq_some h), ?_⟩
  simpa using List.find?_some h

theorem presented_ok {jwt : JwtService} {db : Db} {token : String} {session : Session} {reused : Bool}
    (h : presented jwt db token = .ok (session, reused)) :
    findByTokenHash db (jwt.hashRefreshToken token) = some session ∧ session.revokedAt.isSome = reused ∧
      (reused = false → isUsable session db.now = true) := by
  unfold presented at h
  split at h
  · cases h
  · rename_i s hs
    split at h
    · rename_i hr
      cases h
      exact ⟨hs, hr, fun h => by cases h⟩
    · rename_i hr
      split at h
      · rename_i hu
        cases h
        exact ⟨hs, Bool.eq_false_iff.2 hr, fun _ => hu⟩
      · cases h

/-- The next step of a call is one of the statements. -/
theorem advance_statement (jwt : JwtService) (c : Call) (db : Db) :
    Statement jwt db c (advance jwt c db).1 (advance jwt c db).2 := by
  cases c with
  | waiting request =>
    cases request with
    | refresh token draw =>
      simp only [advance]
      rcases hp : presented jwt db token with e | ⟨session, _ | _⟩
      · exact .refuse
      · obtain ⟨hfind, -, husable⟩ := presented_ok hp
        exact .find hfind (husable rfl)
      · obtain ⟨hfind, hrevoked, -⟩ := presented_ok hp
        exact .reuse hfind hrevoked
    | signIn userId draw =>
      simp only [advance]
      rcases starting_cases jwt userId draw (.signedIn draw.sessionId) db with ⟨e, h⟩ | ⟨s, o, hid, huser, hlive, hi, h⟩
      · rw [h]
        exact .refuse
      · rw [h]
        exact .signIn hid huser hlive hi
    | logOut token =>
      simp only [advance]
      rcases findByTokenHash db (jwt.hashRefreshToken token) with _ | session
      · exact .unknown
      · exact .leave
  | reusing session => exact .report
  | found session draw =>
    simp only [advance]
    rcases hc : checkAccount db session.userId with e | _
    · exact .refuse
    · exact .clear hc
  | cleared session draw => exact .rotate
  | rotated session draw =>
    simp only [advance]
    rcases starting_cases jwt session.userId draw (.renewed session.id draw.sessionId) db with
      ⟨e, h⟩ | ⟨s, o, hid, huser, hlive, hi, h⟩
    · rw [h]
      exact .refuse
    · rw [h]
      exact .renew hid huser hlive hi
  | leaving session => exact .logOut
  | renewed | signedIn | reported | loggedOut | refused => exact .rest

/-! ## What lasts -/

/-- Sessions are never deleted, keep their account and their token, and stay revoked once they are; the accounts
do not change. -/
structure Lasts (db db' : Db) : Prop where
  users : db'.users = db.users
  session : ∀ id row, db.sessions.find id = some row → ∃ row', db'.sessions.find id = some row' ∧
    row'.userId = row.userId ∧ row'.refreshTokenHash = row.refreshTokenHash ∧
    (row.revokedAt.isSome = true → row'.revokedAt.isSome = true)

def IsRevoked (db : Db) (id : SessionId) : Prop := ∃ row, db.sessions.find id = some row ∧ row.revokedAt.isSome = true

theorem Lasts.refl (db : Db) : Lasts db db := ⟨rfl, fun _ row h => ⟨row, h, rfl, rfl, id⟩⟩

theorem revokeRow_revokedAt (now : Timestamp) (s : Session) : (revokeRow now s).revokedAt.isSome = true := by
  unfold revokeRow
  cases s.revokedAt <;> rfl

theorem find_revoked (id id' : SessionId) (db : Db) :
    (revoked id db).sessions.find id' =
      if id = id' then (db.sessions.find id').map (revokeRow db.now) else db.sessions.find id' :=
  Table.find_update db.sessions id id' (revokeRow db.now) fun _ => rfl

theorem find_revokedAll (u : UserId) (id : SessionId) (db : Db) :
    (revokedAll u db).sessions.find id =
      (db.sessions.find id).map fun s => if s.userId = u then revokeRow db.now s else s := by
  refine (Table.find_updateWhere db.sessions (fun s => s.userId = u) (revokeRow db.now) (fun _ => rfl) id).trans ?_
  simp

theorem find_inserted {s : Session} {db : Db} (h : insertable s db = true) (id : SessionId) :
    (inserted s db).sessions.find id = if s.id = id then some { s with createdAt := db.now } else db.sessions.find id := by
  have hnone : db.sessions.find s.id = none := by
    simp only [insertable, Bool.and_eq_true, Bool.not_eq_true'] at h
    exact Table.contains_eq_false.1 h.1.1.1
  change (db.sessions.insert { s with createdAt := db.now }).find id = _
  rw [Table.find_insert]
  by_cases hid : s.id = id
  · subst hid
    simp [hnone, key]
  · simp [hid, key]

theorem lasts_revoked (id : SessionId) (db : Db) : Lasts db (revoked id db) := by
  refine ⟨rfl, fun id' row h => ?_⟩
  rw [find_revoked, h]
  split
  · exact ⟨_, rfl, rfl, rfl, fun _ => revokeRow_revokedAt ..⟩
  · exact ⟨row, rfl, rfl, rfl, fun h => h⟩

theorem lasts_revokedAll (u : UserId) (db : Db) : Lasts db (revokedAll u db) := by
  refine ⟨rfl, fun id row h => ?_⟩
  rw [find_revokedAll, h, Option.map_some]
  by_cases hu : row.userId = u
  · rw [if_pos hu]
    exact ⟨_, rfl, rfl, rfl, fun _ => revokeRow_revokedAt ..⟩
  · rw [if_neg hu]
    exact ⟨row, rfl, rfl, rfl, fun h => h⟩

theorem lasts_inserted {s : Session} {db : Db} (hi : insertable s db = true) : Lasts db (inserted s db) := by
  refine ⟨rfl, fun id row h => ⟨row, ?_, rfl, rfl, fun h => h⟩⟩
  rw [find_inserted hi, if_neg, h]
  rintro rfl
  have hnone : db.sessions.find s.id = none := by
    simp only [insertable, Bool.and_eq_true, Bool.not_eq_true'] at hi
    exact Table.contains_eq_false.1 hi.1.1.1
  rw [hnone] at h
  cases h

/-- Where a session comes from: it was there, and is not revived, or the statement inserts it. -/
theorem Statement.source {jwt : JwtService} {db db' : Db} {c c' : Call} (h : Statement jwt db c c' db') {id : SessionId}
    {row' : Session} (hrow : db'.sessions.find id = some row') :
    (∃ row, db.sessions.find id = some row ∧ row'.userId = row.userId ∧
      row'.refreshTokenHash = row.refreshTokenHash ∧ (row'.revokedAt = none → row.revokedAt = none)) ∨
    ∃ s, insertable s db = true ∧ s.id = id ∧ row' = { s with createdAt := db.now } ∧
      ((∃ session draw outcome, c = .rotated session draw ∧ s.userId = session.userId ∧ c' = .renewed session.id id outcome) ∨
        ∃ outcome, c' = .signedIn id outcome) := by
  have hrevoke : ∀ {now : Timestamp} {row : Session}, (revokeRow now row).revokedAt = none → row.revokedAt = none := by
    intro now row hr
    have := revokeRow_revokedAt now row
    rw [hr] at this
    cases this
  have hone : ∀ {id' : SessionId}, (revoked id' db).sessions.find id = some row' →
      ∃ row, db.sessions.find id = some row ∧ row'.userId = row.userId ∧
        row'.refreshTokenHash = row.refreshTokenHash ∧ (row'.revokedAt = none → row.revokedAt = none) := by
    intro id' h
    rw [find_revoked] at h
    split at h
    · obtain ⟨row, hold, rfl⟩ := Option.map_eq_some_iff.1 h
      exact ⟨row, hold, rfl, rfl, hrevoke⟩
    · exact ⟨row', h, rfl, rfl, fun hr => hr⟩
  cases h with
  | rotate => exact .inl (hone hrow)
  | logOut => exact .inl (hone hrow)
  | @report session =>
    rw [find_revokedAll] at hrow
    obtain ⟨row, hold, rfl⟩ := Option.map_eq_some_iff.1 hrow
    refine .inl ⟨row, hold, ?_⟩
    by_cases hu : row.userId = session.userId
    · rw [if_pos hu]
      exact ⟨rfl, rfl, hrevoke⟩
    · rw [if_neg hu]
      exact ⟨rfl, rfl, fun hr => hr⟩
  | @renew session s draw outcome hid huser _ hi =>
    rw [find_inserted hi] at hrow
    by_cases hs : s.id = id
    · rw [if_pos hs] at hrow
      refine .inr ⟨s, hi, hs, (Option.some.inj hrow).symm, .inl ⟨session, draw, outcome, rfl, huser, ?_⟩⟩
      rw [← hs, hid]
    · rw [if_neg hs] at hrow
      exact .inl ⟨row', hrow, rfl, rfl, fun hr => hr⟩
  | @signIn userId s draw outcome hid huser _ hi =>
    rw [find_inserted hi] at hrow
    by_cases hs : s.id = id
    · rw [if_pos hs] at hrow
      refine .inr ⟨s, hi, hs, (Option.some.inj hrow).symm, .inr ⟨outcome, ?_⟩⟩
      rw [← hs, hid]
    · rw [if_neg hs] at hrow
      exact .inl ⟨row', hrow, rfl, rfl, fun hr => hr⟩
  | _ => exact .inl ⟨row', hrow, rfl, rfl, fun hr => hr⟩

theorem Statement.lasts {jwt : JwtService} {db db' : Db} {c c' : Call} (h : Statement jwt db c c' db') : Lasts db db' := by
  cases h with
  | rotate => exact lasts_revoked ..
  | logOut => exact lasts_revoked ..
  | report => exact lasts_revokedAll ..
  | renew _ _ _ hi => exact lasts_inserted hi
  | signIn _ _ _ hi => exact lasts_inserted hi
  | _ => exact Lasts.refl _

theorem lasts_tick (now : Timestamp) (db : Db) : Lasts db (Db.tick now db) := ⟨rfl, fun _ row h => ⟨row, h, rfl, rfl, id⟩⟩

theorem Lasts.isRevoked {db db' : Db} (h : Lasts db db') {id : SessionId} (hr : IsRevoked db id) : IsRevoked db' id := by
  obtain ⟨row, hrow, hrev⟩ := hr
  obtain ⟨row', hrow', -, -, hrev'⟩ := h.session id row hrow
  exact ⟨row', hrow', hrev' hrev⟩

/-! ## An application -/

/-- The token service of an application with an hour and thirty days, and a hash that keeps tokens apart. -/
def hourly : JwtService := .new "genzh" "web" 3600 (30 * 24 * 3600) fun token => "sha256:" ++ token

/-- A database with one account. -/
def oneAccount : Db :=
  { Db.empty 0 with users := (Table.empty).insert { id := ⟨1⟩, handle := "ana", email := "ana@genzh.test", isActive := true } }

end Genzh.Auth
