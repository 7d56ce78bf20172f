/-
Revoking the sessions of an account from the console. Sessions are issued, looked up and revoked in `sessions`; the console
deletes from a relation of another name. No migration creates that relation, and then the statement fails, for every
account; where the database has one from elsewhere the call succeeds, and leaves every session as it was.

`sessions_revoked_iff`: in every run, the calls that succeed have ended the sessions of their accounts exactly as long as
they find no usable session of theirs.
-/
import Genzh.Api.Bulk

namespace Genzh.Api

open Genzh.Lib Genzh.Domain Genzh.Infrastructure Genzh.Auth Genzh.Admin

/-- `POST /admin/users/{id}/revoke-sessions` -/
def revokeUserSessions (hasRefreshTokens : Bool) (cfg : Config) (token : AccessClaims) (target : UserId) : ApiM Unit := do
  let caller ← bearer cfg token
  requireAdmin caller.userId
  let _ ← onDb .service (findUser caller.userId)
  onDb .service (revokeAllSessions hasRefreshTokens target)

/-- What happens at the API, with the revocations of the console. -/
inductive RevocationEvent where
  | api (e : Event)
  | revokeSessions (token : AccessClaims) (target : UserId)

def serveRevocations (hasRefreshTokens : Bool) (cfg : Config) : RevocationEvent → ApiM Unit
  | .api e => respond cfg e
  | .revokeSessions token target => revokeUserSessions hasRefreshTokens cfg token target

/-- The world an event leaves, whatever its outcome. -/
def revocationStep (hasRefreshTokens : Bool) (cfg : Config) (w : World) (e : RevocationEvent) : World :=
  ((serveRevocations hasRefreshTokens cfg e).exec w).2

/-! ## The law -/

/-- The session a refresh token was issued for, if it is one of the account. -/
def issuedTo (jwt : JwtService) (db : Db) (target : UserId) (token : String) : Bool :=
  (findByTokenHash db (jwt.hashRefreshToken token)).any fun s => s.userId = target

/-- The sessions an account had are over, its refresh tokens are refused, and the sessions of the others are as they were. -/
structure SessionsRevoked (jwt : JwtService) (target : UserId) (db db' : Db) : Prop where
  unusable : ∀ s ∈ db.sessions.rows, s.userId = target → ∀ s', db'.sessions.find s.id = some s' → isUsable s' db'.now = false
  refused : ∀ token, issuedTo jwt db target token = true → ∀ draw, ((refresh jwt token draw).exec db').1.isOk = false
  others : ∀ s, s.userId ≠ target → (s ∈ db'.sessions.rows ↔ s ∈ db.sessions.rows)

/-- A revocation that succeeds has revoked. -/
def Revokes (hasRefreshTokens : Bool) (cfg : Config) (w : World) : RevocationEvent → Prop
  | .api _ => True
  | .revokeSessions token target =>
    ((revokeUserSessions hasRefreshTokens cfg token target).exec w).1.isOk = true →
      SessionsRevoked cfg.auth.jwt target w.db (revocationStep hasRefreshTokens cfg w (.revokeSessions token target)).db

/-- Does the token call as an administrator? -/
def callsAsAdmin (cfg : Config) (w : World) (token : AccessClaims) : Bool :=
  match cfg.auth.jwt.authenticate token w.db.now with
  | .ok caller => (roleOf w.db caller.userId).isAdmin
  | .error _ => false

/-- Has the account a session that can still be exchanged? -/
def hasUsable (db : Db) (target : UserId) : Bool := db.sessions.rows.any fun s => s.userId = target && isUsable s db.now

/-- There is nothing to revoke, or the call is not made by somebody who may, or on nobody, or where the statement fails. -/
def NothingToRevoke (hasRefreshTokens : Bool) (cfg : Config) (w : World) : RevocationEvent → Prop
  | .api _ => True
  | .revokeSessions token target =>
    hasRefreshTokens = true → callsAsAdmin cfg w token = true → w.db.users.contains target = true → hasUsable w.db target = false

section Revocation

variable {hasRefreshTokens : Bool} {cfg : Config} {w : World} {token : AccessClaims} {target : UserId}

/-- A call of the console writes nothing, and succeeds where the statement can be executed. -/
theorem exec_revokeUserSessions (hasRefreshTokens : Bool) (cfg : Config) (w : World) (token : AccessClaims) (target : UserId) :
    ((revokeUserSessions hasRefreshTokens cfg token target).exec w).2 = w ∧
    ((revokeUserSessions hasRefreshTokens cfg token target).exec w).1.isOk =
      (callsAsAdmin cfg w token && (w.db.users.contains target && hasRefreshTokens)) := by
  -- the caller, the administrator's role, the account, the statement: each in turn
  unfold revokeUserSessions bearer callsAsAdmin
  rw [Prog.exec_query_bind]
  rcases cfg.auth.jwt.authenticate token w.db.now with e | caller
  · exact ⟨rfl, rfl⟩
  · simp only [Except.mapError]
    rw [exec_requireAdmin_bind]
    by_cases hadmin : (roleOf w.db caller.userId).isAdmin = true
    · rw [if_pos hadmin, exec_findCaller_bind hadmin, exec_onDb, exec_revokeAllSessions, hadmin]
      rcases w.db.users.contains target <;> cases hasRefreshTokens <;> exact ⟨rfl, rfl⟩
    · rw [if_neg hadmin]
      exact ⟨rfl, by simp [hadmin, Except.isOk, Except.toBool]⟩

/-- A token whose session cannot be exchanged is refused. -/
theorem refresh_unusable {jwt : JwtService} {db : Db} {refreshToken : String} {s : Infrastructure.Session} {draw : Draw}
    (hfind : findByTokenHash db (jwt.hashRefreshToken refreshToken) = some s) (h : isUsable s db.now = false) :
    ((refresh jwt refreshToken draw).exec db).1.isOk = false := by
  unfold refresh
  rw [Prog.exec_query_bind]
  unfold presented
  rw [hfind]
  simp only [h]
  -- a session that was revoked is a reuse, one that has expired is not; both are refused
  by_cases hrevoked : s.revokedAt.isSome = true
  · rw [if_pos hrevoked]
    rfl
  · rw [if_neg hrevoked]
    rfl

theorem sessionsRevoked_same (jwt : JwtService) {db : Db} : SessionsRevoked jwt target db db ↔ hasUsable db target = false := by
  have hnone : hasUsable db target = false ↔ ∀ s ∈ db.sessions.rows, s.userId = target → isUsable s db.now = false := by
    unfold hasUsable
    rw [List.any_eq_false]
    refine forall_congr' fun s => forall_congr' fun _ => ?_
    simp
  rw [hnone]
  constructor
  · intro h s hs hu
    exact h.unusable s hs hu s (Table.mem_iff_find.1 hs)
  · intro h
    refine ⟨fun s hs hu s' hs' => ?_, fun refreshToken hissued draw => ?_, fun s _ => Iff.rfl⟩
    · have hsame : db.sessions.find s.id = some s := Table.mem_iff_find.1 hs
      rw [hsame] at hs'
      cases hs'
      exact h s hs hu
    · obtain ⟨s, hfind, hu⟩ := (Option.any_eq_true _ _).1 hissued
      exact refresh_unusable hfind (h s (List.mem_of_find?_eq_some hfind) (of_decide_eq_true hu))

theorem revokes_iff (e : RevocationEvent) : Revokes hasRefreshTokens cfg w e ↔ NothingToRevoke hasRefreshTokens cfg w e := by
  cases e with
  | api e => exact Iff.rfl
  | revokeSessions token target =>
    obtain ⟨hsame, hok⟩ := exec_revokeUserSessions hasRefreshTokens cfg w token target
    have hleft : revocationStep hasRefreshTokens cfg w (.revokeSessions token target) = w := hsame
    have hrevokes : Revokes hasRefreshTokens cfg w (.revokeSessions token target) ↔
        ((callsAsAdmin cfg w token && (w.db.users.contains target && hasRefreshTokens)) = true → hasUsable w.db target = false) := by
      rw [← hok, ← sessionsRevoked_same cfg.auth.jwt]
      unfold Revokes
      simp only [hleft]
    rw [hrevokes, Bool.and_eq_true, Bool.and_eq_true]
    exact ⟨fun h hr ha hc => h ⟨ha, hc, hr⟩, fun h ⟨ha, hc, hr⟩ => h hr ha hc⟩

end Revocation

/-! ### A session that outlives its revocation -/

/-- The administrator and somebody else arrive, and the sessions of the latter are revoked. -/
def revocation : List RevocationEvent := arrivals.map .api ++ [.revokeSessions (tokenAtEpoch ⟨1⟩ rootDraw) ⟨2⟩]

def afterRevocation : Draw := { sessionId := ⟨12⟩, refreshToken := "n", jti := 4 }

end Genzh.Api
