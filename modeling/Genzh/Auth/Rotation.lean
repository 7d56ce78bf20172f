/-
A refresh token is meant to be exchanged once. A refresh looks its session up and revokes it in two
statements, and does not ask whether the revocation found it live, so two refreshes between each other's
statements both go on. In the runs where every revocation of the token's session by a refresh finds it
live, at most one refresh succeeds.
-/
import Genzh.Auth.Calls

namespace Genzh.Auth

open Genzh.Lib Genzh.Domain Genzh.Infrastructure

/-- The unique index on the token's hash. -/
def TokensUnique (db : Db) : Prop :=
  ∀ id id' row row', db.sessions.find id = some row → db.sessions.find id' = some row' →
    row.refreshTokenHash = row'.refreshTokenHash → id = id'

/-- Does the request present the token to be refreshed? -/
def Presents (token : String) (request : Request) : Prop := ∃ draw, request = .refresh token draw

/-- The refresh is past its revocation. -/
def Rotated : Call → Prop
  | .rotated .. | .renewed .. => True
  | _ => False

/-- Has the refresh succeeded? -/
def succeeded : Call → Bool
  | .renewed _ _ (.ok _) => true
  | _ => false

/-- The session by this identifier is that of the token. -/
def HoldsToken (jwt : JwtService) (db : Db) (token : String) (id : SessionId) : Prop :=
  ∃ row, db.sessions.find id = some row ∧ row.refreshTokenHash = jwt.hashRefreshToken token

/-- What a refresh knows: the session it has found is that of its token, and is revoked once it is past that. -/
def Knows (jwt : JwtService) (db : Db) (request : Request) : Call → Prop
  | .waiting r => r = request
  | .found session _ | .cleared session _ => ∃ token, Presents token request ∧ HoldsToken jwt db token session.id
  | .rotated session _ =>
    ∃ token, Presents token request ∧ HoldsToken jwt db token session.id ∧ IsRevoked db session.id
  | .renewed parent _ _ => ∃ token, Presents token request ∧ HoldsToken jwt db token parent ∧ IsRevoked db parent
  | _ => True

/-! ## What lasts -/

section Lasts

variable {jwt : JwtService} {db db' : Db}

theorem Lasts.holdsToken (h : Lasts db db') {token : String} {id : SessionId} (ht : HoldsToken jwt db token id) :
    HoldsToken jwt db' token id := by
  obtain ⟨row, hrow, hhash⟩ := ht
  obtain ⟨row', hrow', -, hhash', -⟩ := h.session id row hrow
  exact ⟨row', hrow', hhash'.trans hhash⟩

theorem Lasts.knows (h : Lasts db db') {request : Request} {c : Call} (hk : Knows jwt db request c) :
    Knows jwt db' request c := by
  cases c with
  | found | cleared =>
    obtain ⟨token, hp, ht⟩ := hk
    exact ⟨token, hp, h.holdsToken ht⟩
  | rotated | renewed =>
    obtain ⟨token, hp, ht, hr⟩ := hk
    exact ⟨token, hp, h.holdsToken ht, h.isRevoked hr⟩
  | _ => exact hk

end Lasts

theorem Statement.knows {jwt : JwtService} {db db' : Db} {c c' : Call} (h : Statement jwt db c c' db') {request : Request}
    (hk : Knows jwt db request c) : Knows jwt db' request c' := by
  have hlasts := h.lasts
  cases h with
  | @find token draw session hfind husable =>
    obtain ⟨hrow, hhash⟩ := findByTokenHash_some hfind
    have hreq : Request.refresh token draw = request := hk
    exact ⟨token, ⟨draw, hreq.symm⟩, session, hrow, hhash⟩
  | clear => exact hk
  | @rotate session draw =>
    obtain ⟨token, hp, ht⟩ := hk
    refine ⟨token, hp, hlasts.holdsToken ht, ?_⟩
    obtain ⟨row, hrow, -⟩ := ht
    refine ⟨revokeRow db.now row, ?_, revokeRow_revokedAt ..⟩
    rw [find_revoked, if_pos rfl, hrow, Option.map_some]
  | renew => exact hlasts.knows hk
  | rest => exact hk
  | _ => trivial

theorem Statement.tokensUnique {jwt : JwtService} {db db' : Db} {c c' : Call} (h : Statement jwt db c c' db')
    (hu : TokensUnique db) : TokensUnique db' := by
  -- a new session's hash is no other session's
  have hfresh : ∀ {s : Session} {id : SessionId} {row : Session}, insertable s db = true → db.sessions.find id = some row →
      row.refreshTokenHash ≠ s.refreshTokenHash := by
    intro s id row hi hrow
    simp only [insertable, Bool.and_eq_true, List.all_eq_true, decide_eq_true_eq] at hi
    exact hi.1.1.2 row (Table.find_eq_some.1 hrow).1
  intro id id' row row' hrow hrow' hhash
  rcases h.source hrow with ⟨old, hold, -, h1, -⟩ | ⟨s, hi, hs, rfl, hc⟩
  · rcases h.source hrow' with ⟨old', hold', -, h1', -⟩ | ⟨s', hi', hs', rfl, -⟩
    · exact hu id id' old old' hold hold' (h1.symm.trans (hhash.trans h1'))
    · exact absurd (h1.symm.trans hhash) (hfresh hi' hold)
  · rcases h.source hrow' with ⟨old', hold', -, h1', -⟩ | ⟨s', hi', hs', rfl, hc'⟩
    · exact absurd (h1'.symm.trans hhash.symm) (hfresh hi hold')
    · -- a statement inserts one session only, the one its next state names
      have hstarted : c'.started = some id := by
        rcases hc with ⟨_, _, _, -, -, hc⟩ | ⟨_, hc⟩ <;> rw [hc] <;> rfl
      have hstarted' : c'.started = some id' := by
        rcases hc' with ⟨_, _, _, -, -, hc'⟩ | ⟨_, hc'⟩ <;> rw [hc'] <;> rfl
      exact Option.some.inj (hstarted.symm.trans hstarted')

/-- A refresh gets past its revocation by revoking, and by nothing else. -/
theorem Statement.rotated {jwt : JwtService} {db db' : Db} {c c' : Call} (h : Statement jwt db c c' db') (hr : Rotated c') :
    Rotated c ∨ ∃ session draw, c = .cleared session draw := by
  cases h with
  | @rotate session draw => exact .inr ⟨session, draw, rfl⟩
  | renew => exact .inl trivial
  | rest => exact .inl hr
  | _ => cases hr

theorem Presents.unique {token token' : String} {request : Request} (h : Presents token request)
    (h' : Presents token' request) : token = token' := by
  obtain ⟨draw, rfl⟩ := h
  obtain ⟨draw', h'⟩ := h'
  cases h'
  rfl

theorem Knows.rotated {jwt : JwtService} {db : Db} {token : String} {request : Request} {c : Call}
    (hk : Knows jwt db request c) (hp : Presents token request) (hr : Rotated c) :
    ∃ id, HoldsToken jwt db token id ∧ IsRevoked db id := by
  cases c with
  | rotated session draw =>
    obtain ⟨token', hp', ht, hrev⟩ := hk
    rw [hp.unique hp']
    exact ⟨session.id, ht, hrev⟩
  | renewed parent child outcome =>
    obtain ⟨token', hp', ht, hrev⟩ := hk
    rw [hp.unique hp']
    exact ⟨parent, ht, hrev⟩
  | _ => cases hr

/-! ## Runs -/

section Runs

variable {I : Type} [DecidableEq I] (jwt : JwtService) (token : String) (requests : I → Request)

/-- At most one of the refreshes that present the token has succeeded. -/
def ExchangedOnce (σ : Sessions I) : Prop :=
  ∀ i j, Presents token (requests i) → Presents token (requests j) → succeeded (σ.calls i) = true →
    succeeded (σ.calls j) = true → i = j

/-- A refresh that presents the token and is about to revoke its session finds it live. -/
def findsLive (σ : Sessions I) : Event I Timestamp → Bool
  | .turn i =>
    match requests i, σ.calls i with
    | .refresh t _, .cleared session _ => t ≠ token || isLive σ.store session.id
    | _, _ => true
  | .outside _ => true

/-- Every call knows its session, and at most one refresh of the token is past its revocation. -/
def OneRotation : Sessions I → Prop :=
  System.Outline TokensUnique (fun i c db => Knows jwt db (requests i) c)
    fun i c => Presents token (requests i) ∧ Rotated c

variable {jwt token requests}

theorem OneRotation.step {σ : Sessions I} (h : OneRotation jwt token requests σ) {e : Event I Timestamp}
    (hlive : findsLive token requests σ e = true) : OneRotation jwt token requests (step jwt σ e) := by
  cases e with
  | outside now => exact h.elsewhere h.shared h.own
  | turn i =>
    have hs := advance_statement jwt (σ.calls i) σ.store
    refine System.Outline.turn h (hs.tokensUnique h.shared) (hs.knows (h.own i)) (fun j _ => hs.lasts.knows (h.own j)) ?_
    rintro ⟨hp, hrot⟩
    rcases hs.rotated hrot with hr | ⟨session, draw, hc⟩
    · exact .inl ⟨hp, hr⟩
    · -- the session is live, so no other refresh of the token has revoked it
      right
      rintro j - ⟨hpj, hrj⟩
      obtain ⟨id, ⟨row, hrow, hhash⟩, row', hrow', hrev⟩ := (h.own j).rotated hpj hrj
      have hk := h.own i
      rw [hc] at hk
      obtain ⟨token', hp', row₀, hrow₀, hhash₀⟩ := hk
      rw [← hp.unique hp'] at hhash₀
      have hid := h.shared id session.id row row₀ hrow hrow₀ (hhash.trans hhash₀.symm)
      obtain ⟨draw', hreq⟩ := hp
      have hl : isLive σ.store session.id = true := by
        simpa [findsLive, hreq, hc] using hlive
      unfold isLive at hl
      rw [← hid, hrow', Option.any_some] at hl
      rw [Option.isNone_iff_eq_none] at hl
      rw [hl] at hrev
      cases hrev

omit [DecidableEq I] in
theorem OneRotation.exchangedOnce {σ : Sessions I} (h : OneRotation jwt token requests σ) : ExchangedOnce token requests σ := by
  have hrot : ∀ {c : Call}, succeeded c = true → Rotated c := by
    intro c hc
    cases c with
    | renewed => trivial
    | _ => cases hc
  exact fun i j hi hj hsi hsj => h.exclusive i j ⟨hi, hrot hsi⟩ ⟨hj, hrot hsj⟩

/-- Over every schedule of any requests, from any database that keeps the unique index: where every revocation by
a refresh of the token finds the session live, at most one of these refreshes succeeds. -/
theorem exchanged_once (db : Db) (es : List (Event I Timestamp)) (hu : TokensUnique db)
    (hlive : Along (step jwt) (fun σ e => findsLive token requests σ e = true) (begin db requests) es) :
    Always (step jwt) (ExchangedOnce token requests) (begin db requests) es := by
  have h0 : OneRotation jwt token requests (begin db requests) := by
    refine ⟨hu, fun _ => rfl, fun i j hi => ?_⟩
    cases hi.2
  exact (always_of_along (fun _ _ h hl => h.step hl) h0 hlive).mono fun _ h => h.exchangedOnce

end Runs

/-- Somebody signs in; two refreshes present the token of that session. -/
def twoRefreshes : Fin 3 → Request
  | 0 => .signIn ⟨1⟩ { sessionId := ⟨10⟩, refreshToken := "a", jti := 1 }
  | 1 => .refresh "a" { sessionId := ⟨11⟩, refreshToken := "b", jti := 2 }
  | 2 => .refresh "a" { sessionId := ⟨12⟩, refreshToken := "c", jti := 3 }

theorem tokensUnique_oneAccount : TokensUnique oneAccount := by
  intro id id' row row' h
  cases h

/-- One refresh after the other. -/
theorem exchanged_once_in_turn :
    Always (step hourly) (ExchangedOnce "a" twoRefreshes) (begin oneAccount twoRefreshes)
      [.turn 0, .turn 1, .turn 1, .turn 1, .turn 1, .turn 2, .turn 2] :=
  exchanged_once oneAccount _ tokensUnique_oneAccount (by decide +kernel)

/-- The second refresh takes each of its statements right after the first has taken the same one. -/
def sideBySide : List (Event (Fin 3) Timestamp) :=
  [.turn 0, .turn 1, .turn 2, .turn 1, .turn 2, .turn 1, .turn 2, .turn 1, .turn 2]

/-- Both find the session live before either revokes it, and both succeed. -/
theorem exchanged_twice :
    ¬ Always (step hourly) (ExchangedOnce "a" twoRefreshes) (begin oneAccount twoRefreshes) sideBySide ∧
      succeeded ((run (step hourly) (begin oneAccount twoRefreshes) sideBySide).calls 1) = true ∧
      succeeded ((run (step hourly) (begin oneAccount twoRefreshes) sideBySide).calls 2) = true := by
  have h1 : succeeded ((run (step hourly) (begin oneAccount twoRefreshes) sideBySide).calls 1) = true := by decide +kernel
  have h2 : succeeded ((run (step hourly) (begin oneAccount twoRefreshes) sideBySide).calls 2) = true := by decide +kernel
  refine ⟨fun h => ?_, h1, h2⟩
  have := h.last 1 2 ⟨_, rfl⟩ ⟨_, rfl⟩ h1 h2
  cases this

end Genzh.Auth
