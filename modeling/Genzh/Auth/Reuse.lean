/-
A revoked token that comes back is taken as evidence of theft, and every session of the account is
revoked, in one statement over the rows of that moment. A refresh that has passed its checks by then still
inserts its new session. Where none has, the account is closed from that moment on: what existed, and
what descends from it by refreshes, is of no use any more, and every usable session descends from one that
somebody signed in for afterwards.
-/
import Genzh.Auth.Calls

namespace Genzh.Auth

open Genzh.Lib Genzh.Domain Genzh.Infrastructure Relation

/-- Does the account have a session by this identifier? -/
def owns (db : Db) (u : UserId) (id : SessionId) : Bool := (db.sessions.find id).any fun s => s.userId = u

/-- Can a session by this identifier be exchanged for a new token pair? -/
def usable (db : Db) (id : SessionId) : Bool := (db.sessions.find id).any fun s => isUsable s db.now

variable {I : Type}

/-- A refresh has exchanged the session `p` for the session `c`. -/
def Parent (σ : Sessions I) (p c : SessionId) : Prop := ∃ i outcome, σ.calls i = .renewed p c outcome

/-- Since the database was `old`, the account is closed to what comes from its sessions: none of these, and no
session that descends from them by refreshes, is usable, and every usable session of the account descends
from one that was signed in for after that. -/
structure ClosedSince (old : Db) (u : UserId) (σ : Sessions I) : Prop where
  ended : ∀ e s, owns old u e = true → ReflTransGen (Parent σ) e s → usable σ.store s = false
  signedIn : ∀ s, owns σ.store u s = true → usable σ.store s = true →
    ∃ k s₀ outcome, σ.calls k = .signedIn s₀ outcome ∧ old.sessions.find s₀ = none ∧ ReflTransGen (Parent σ) s₀ s

/-- Is the call a refresh of the account between finding its session live and inserting the new one? One whose
account is still to be found inactive is not. -/
def inFlight (db : Db) (u : UserId) : Call → Bool
  | .found session _ => session.userId = u && (checkAccount db u).isOk
  | .cleared session _ | .rotated session _ => session.userId = u
  | _ => false

/-! ## Owners -/

section Owners

variable {db db' : Db} {u u' : UserId} {id : SessionId}

theorem owns_iff : owns db u id = true ↔ ∃ row, db.sessions.find id = some row ∧ row.userId = u := by
  unfold owns
  rw [Option.any_eq_true]
  simp

theorem owns_unique (h : owns db u id = true) (h' : owns db u' id = true) : u = u' := by
  obtain ⟨row, hrow, rfl⟩ := owns_iff.1 h
  obtain ⟨row', hrow', rfl⟩ := owns_iff.1 h'
  rw [hrow] at hrow'
  cases hrow'
  rfl

theorem Lasts.keepsOwner (hl : Lasts db db') (h : owns db u id = true) : owns db' u id = true := by
  obtain ⟨row, hrow, rfl⟩ := owns_iff.1 h
  obtain ⟨row', hrow', huser, -⟩ := hl.session id row hrow
  exact owns_iff.2 ⟨row', hrow', huser⟩

theorem IsRevoked.not_usable (h : IsRevoked db id) : usable db id = false := by
  obtain ⟨row, hrow, hrev⟩ := h
  unfold usable isUsable
  rw [hrow, Option.any_some, ← Option.not_isSome, hrev]
  rfl

end Owners

/-! ## What a call says of its session -/

/-- The session a call has read is there, and of the account the call takes it for. -/
def Reads (db : Db) : Call → Prop
  | .reusing session | .found session _ | .cleared session _ | .rotated session _ =>
    owns db session.userId session.id = true
  | .renewed parent child _ => ∃ u, owns db u parent = true ∧ owns db u child = true
  | _ => True

theorem Lasts.reads {db db' : Db} (h : Lasts db db') {c : Call} (hr : Reads db c) : Reads db' c := by
  cases c with
  | reusing | found | cleared | rotated => exact h.keepsOwner hr
  | renewed =>
    obtain ⟨u, hp, hc⟩ := hr
    exact ⟨u, h.keepsOwner hp, h.keepsOwner hc⟩
  | _ => trivial

theorem Statement.reads {jwt : JwtService} {db db' : Db} {c c' : Call} (h : Statement jwt db c c' db') (hr : Reads db c) :
    Reads db' c' := by
  have hlasts := h.lasts
  cases h with
  | reuse hfind => exact owns_iff.2 ⟨_, (findByTokenHash_some hfind).1, rfl⟩
  | find hfind => exact owns_iff.2 ⟨_, (findByTokenHash_some hfind).1, rfl⟩
  | clear => exact hr
  | rotate => exact hlasts.keepsOwner hr
  | @renew session s draw outcome hid huser _ hi =>
    refine ⟨session.userId, hlasts.keepsOwner hr, owns_iff.2 ⟨{ s with createdAt := db.now }, ?_, huser⟩⟩
    rw [find_inserted hi, if_pos hid]
  | rest => exact hr
  | _ => trivial

/-! ## From the reuse on -/

/-- What a call must not carry over: a session the account had in the database `old`, unless the account is
still to be found inactive. -/
def Fresh (old : Db) (u : UserId) (db : Db) : Call → Prop
  | .found session _ => owns old u session.id = false ∨ (checkAccount db session.userId).isOk = false
  | .cleared session _ | .rotated session _ => owns old u session.id = false
  | .renewed parent child _ => owns old u parent = true → owns old u child = true
  | _ => True

/-- Every session of the account was there in the database `old`, or descends from one that was signed in for
after that. -/
def Accounted (old : Db) (u : UserId) (σ : Sessions I) : Prop :=
  ∀ id, owns σ.store u id = true → owns old u id = true ∨
    ∃ k s₀ outcome, σ.calls k = .signedIn s₀ outcome ∧ old.sessions.find s₀ = none ∧ ReflTransGen (Parent σ) s₀ id

/-- The sessions of that database have lasted, and those of the account are revoked. -/
def Revoked (old : Db) (u : UserId) (db : Db) : Prop :=
  Lasts old db ∧ ∀ id, owns old u id = true → IsRevoked db id

/-- The account is closed: its old sessions are revoked and no call carries one of them over. -/
structure Closed (old : Db) (u : UserId) (σ : Sessions I) : Prop where
  outline : System.Outline (Revoked old u) (fun _ c db => Reads db c ∧ Fresh old u db c) (fun _ _ => False) σ
  accounted : Accounted old u σ

theorem Lasts.trans {db db' db'' : Db} (h : Lasts db db') (h' : Lasts db' db'') : Lasts db db'' := by
  refine ⟨h'.users.trans h.users, fun id row hrow => ?_⟩
  obtain ⟨row', hrow', hu, hh, hr⟩ := h.session id row hrow
  obtain ⟨row'', hrow'', hu', hh', hr'⟩ := h'.session id row' hrow'
  exact ⟨row'', hrow'', hu'.trans hu, hh'.trans hh, fun h => hr' (hr h)⟩

theorem Lasts.sameAccount {db db' : Db} (h : Lasts db db') (u : UserId) : checkAccount db' u = checkAccount db u := by
  unfold checkAccount
  rw [h.users]

section Closed

variable {old db db' : Db} {u : UserId}

theorem Revoked.lasts (h : Revoked old u db) (hl : Lasts db db') : Revoked old u db' :=
  ⟨h.1.trans hl, fun id hid => hl.isRevoked (h.2 id hid)⟩

theorem Lasts.fresh (h : Lasts db db') {c : Call} (hf : Fresh old u db c) : Fresh old u db' c := by
  cases c with
  | found session draw =>
    simp only [Fresh, h.sameAccount]
    exact hf
  | _ => exact hf

theorem Statement.fresh {jwt : JwtService} {c c' : Call} (h : Statement jwt db c c' db') (hr : Revoked old u db)
    (hf : Fresh old u db c) : Fresh old u db' c' := by
  cases h with
  | @find token draw session hfind husable =>
    -- an old session is revoked, and this one is usable
    left
    rw [Bool.eq_false_iff]
    intro hold
    obtain ⟨row, hrow, hrev⟩ := hr.2 _ hold
    rw [(findByTokenHash_some hfind).1] at hrow
    cases hrow
    unfold isUsable at husable
    rw [← Option.not_isSome, hrev] at husable
    cases husable
  | clear hactive =>
    rcases hf with hf | hf
    · exact hf
    · rw [hactive] at hf
      cases hf
  | rotate => exact hf
  | @renew session s draw =>
    intro hold
    have hf : owns old u session.id = false := hf
    rw [hf] at hold
    cases hold
  | rest => exact hf
  | _ => trivial

end Closed

/-! ## Runs -/

section Runs

variable [DecidableEq I] {jwt : JwtService} {old : Db} {u : UserId} {σ : Sessions I}

/-- A finished call keeps what it returned. -/
theorem calls_step_of_rest {c : Call} (hrest : ∀ db, advance jwt c db = (c, db)) {k : I} (h : σ.calls k = c)
    (e : Event I Timestamp) : (step jwt σ e).calls k = c := by
  cases e with
  | outside now => exact h
  | turn i =>
    by_cases hk : k = i
    · subst hk
      refine (System.calls_turn_self σ k).trans ?_
      rw [h, hrest]
    · exact (System.calls_turn_of_ne σ i k hk).trans h

theorem descends_step {p s : SessionId} (h : ReflTransGen (Parent σ) p s) (e : Event I Timestamp) :
    ReflTransGen (Parent (step jwt σ e)) p s := by
  induction h with
  | refl => exact .refl
  | tail _ hpc ih =>
    obtain ⟨k, outcome, hk⟩ := hpc
    exact ih.tail ⟨k, outcome, calls_step_of_rest (fun _ => rfl) hk e⟩

theorem Closed.accounted_turn (h : Closed old u σ) (i : I) : Accounted old u (step jwt σ (.turn i)) := by
  have hs := advance_statement jwt (σ.calls i) σ.store
  have hself : (step jwt σ (.turn i)).calls i = (advance jwt (σ.calls i) σ.store).1 := System.calls_turn_self σ i
  intro id hid
  obtain ⟨row', hrow', huser'⟩ := owns_iff.1 hid
  rcases hs.source hrow' with ⟨row, hrow, huser, -, -⟩ | ⟨s, hi, rfl, rfl, hc⟩
  · rcases h.accounted id (owns_iff.2 ⟨row, hrow, huser.symm.trans huser'⟩) with hold | ⟨k, s₀, outcome, hk, hnew, hpath⟩
    · exact .inl hold
    · exact .inr ⟨k, s₀, outcome, calls_step_of_rest (fun _ => rfl) hk _, hnew, descends_step hpath _⟩
  · right
    rcases hc with ⟨session, draw, outcome, hc, husr, hc'⟩ | ⟨outcome, hc'⟩
    · -- exchanged for a session that is accounted for itself
      obtain ⟨hreads, hfresh⟩ := h.outline.own i
      rw [hc] at hreads hfresh
      have hu : session.userId = u := husr.symm.trans huser'
      have hreads : owns σ.store session.userId session.id = true := hreads
      have hfresh : owns old u session.id = false := hfresh
      rw [hu] at hreads
      rcases h.accounted session.id hreads with hold | ⟨k, s₀, outcome', hk, hnew, hpath⟩
      · rw [hold] at hfresh
        cases hfresh
      · refine ⟨k, s₀, outcome', calls_step_of_rest (fun _ => rfl) hk _, hnew, (descends_step hpath _).tail ?_⟩
        exact ⟨i, outcome, hself.trans hc'⟩
    · refine ⟨i, s.id, outcome, hself.trans hc', ?_, .refl⟩
      rcases hf : old.sessions.find s.id with _ | row
      · rfl
      · obtain ⟨row', hrow', -⟩ := h.outline.shared.1.session s.id row hf
        simp only [insertable, Bool.and_eq_true, Bool.not_eq_true'] at hi
        have hnone := Table.contains_eq_false.1 hi.1.1.1
        rw [hnone] at hrow'
        cases hrow'

theorem Closed.step (h : Closed old u σ) (e : Event I Timestamp) : Closed old u (step jwt σ e) := by
  cases e with
  | outside now =>
    have hl := lasts_tick now σ.store
    refine ⟨h.outline.elsewhere (h.outline.shared.lasts hl) fun i => ?_, h.accounted⟩
    exact ⟨hl.reads (h.outline.own i).1, hl.fresh (h.outline.own i).2⟩
  | turn i =>
    have hs := advance_statement jwt (σ.calls i) σ.store
    have hl := hs.lasts
    refine ⟨h.outline.turn (h.outline.shared.lasts hl) ?_ (fun j _ => ?_) (fun hx => hx.elim), h.accounted_turn i⟩
    · exact ⟨hs.reads (h.outline.own i).1, hs.fresh h.outline.shared (h.outline.own i).2⟩
    · exact ⟨hl.reads (h.outline.own j).1, hl.fresh (h.outline.own j).2⟩

omit [DecidableEq I] in
theorem Closed.closedSince (h : Closed old u σ) : ClosedSince old u σ := by
  have hrev : ∀ id, owns old u id = true → usable σ.store id = false :=
    fun id hid => (h.outline.shared.2 id hid).not_usable
  constructor
  · intro e s he hpath
    -- whatever descends from an old session was there with it
    have hs : owns old u s = true := by
      induction hpath with
      | refl => exact he
      | tail _ hpc ih =>
        obtain ⟨i, outcome, hi⟩ := hpc
        have hfresh := (h.outline.own i).2
        rw [hi] at hfresh
        exact hfresh ih
    exact hrev s hs
  · intro s hs husable
    rcases h.accounted s hs with hold | hnew
    · rw [hrev s hold] at husable
      cases husable
    · exact hnew

/-- Calls read their own accounts' sessions. -/
theorem reads_run (db : Db) (requests : I → Request) (es : List (Event I Timestamp)) (i : I) :
    Reads (run (Auth.step jwt) (begin db requests) es).store ((run (Auth.step jwt) (begin db requests) es).calls i) := by
  have h : System.Outline (fun _ => True) (fun _ c db => Reads db c) (fun _ _ => False)
      (run (Auth.step jwt) (begin db requests) es) := by
    refine run_of_step (fun σ e h => ?_) ⟨trivial, fun _ => trivial, fun _ _ hx => hx.elim⟩
    cases e with
    | outside now => exact h.elsewhere trivial fun i => (lasts_tick now σ.store).reads (h.own i)
    | turn i =>
      have hs := advance_statement jwt (σ.calls i) σ.store
      exact h.turn trivial (hs.reads (h.own i)) (fun j _ => hs.lasts.reads (h.own j)) fun hx => hx.elim
  exact h.own i

theorem closed_of_report (jwt : JwtService) {i : I} {session : Session} (hreads : ∀ i, Reads σ.store (σ.calls i))
    (hi : σ.calls i = .reusing session) (hnone : ∀ j, inFlight σ.store session.userId (σ.calls j) = false) :
    Closed (step jwt σ (.turn i)).store session.userId (step jwt σ (.turn i)) := by
  have hcall : (Auth.step jwt σ (.turn i)).calls i = .reported session := by
    refine (System.calls_turn_self σ i).trans ?_
    rw [hi]
    rfl
  have hstore : (Auth.step jwt σ (.turn i)).store = revokedAll session.userId σ.store := by
    refine (System.store_turn σ i).trans ?_
    rw [hi]
    rfl
  have hl := lasts_revokedAll session.userId σ.store
  rw [hstore]
  refine ⟨⟨?_, fun j => ?_, fun _ _ hx => hx.elim⟩, fun id hid => .inl (by rwa [hstore] at hid)⟩
  · -- every session of the account is revoked by now
    rw [hstore]
    refine ⟨Lasts.refl _, fun id hid => ?_⟩
    obtain ⟨row', hrow', huser'⟩ := owns_iff.1 hid
    refine ⟨row', hrow', ?_⟩
    rw [find_revokedAll] at hrow'
    obtain ⟨row, -, rfl⟩ := Option.map_eq_some_iff.1 hrow'
    by_cases hu : row.userId = session.userId
    · rw [if_pos hu]
      exact revokeRow_revokedAt ..
    · rw [if_neg hu] at huser'
      exact absurd huser' hu
  · rw [hstore]
    by_cases hj : j = i
    · subst hj
      rw [hcall]
      exact ⟨trivial, trivial⟩
    · rw [show (Auth.step jwt σ (.turn i)).calls j = σ.calls j from System.calls_turn_of_ne σ i j hj]
      have hr := hl.reads (hreads j)
      refine ⟨hr, ?_⟩
      -- the session of another account is none of this one's
      have hother : ∀ {s : Session}, owns (revokedAll session.userId σ.store) s.userId s.id = true →
          s.userId ≠ session.userId → owns (revokedAll session.userId σ.store) session.userId s.id = false := by
        intro s hs hne
        rw [Bool.eq_false_iff]
        exact fun h => hne (owns_unique hs h)
      have hn := hnone j
      cases hc : σ.calls j with
      | found s draw =>
        -- one of this account is not in flight only where the account is about to be found inactive
        rw [hc] at hr hn
        by_cases hu : s.userId = session.userId
        · right
          rw [hl.sameAccount, hu]
          simpa [inFlight, hu] using hn
        · exact .inl (hother hr hu)
      | cleared s draw =>
        rw [hc] at hr hn
        exact hother hr (of_decide_eq_false hn)
      | rotated s draw =>
        rw [hc] at hr hn
        exact hother hr (of_decide_eq_false hn)
      | renewed parent child outcome =>
        rw [hc] at hr
        obtain ⟨u, hp, hchild⟩ := hr
        intro hold
        have hu : session.userId = u := owns_unique hold hp
        rw [← hu] at hchild
        exact hchild
      | _ => trivial

/-- Over every schedule of any requests, from any database: where a refresh reports the reuse of a revoked token
while no other refresh of the account is in flight past its checks, the account is closed from then on, to
what it had and to all that descends from it. -/
theorem reuse_closes_account (db : Db) (requests : I → Request) (before after : List (Event I Timestamp)) (i : I)
    (session : Session) (hi : (run (Auth.step jwt) (begin db requests) before).calls i = .reusing session)
    (hnone : ∀ j, inFlight (run (Auth.step jwt) (begin db requests) before).store session.userId
      ((run (Auth.step jwt) (begin db requests) before).calls j) = false) :
    Always (Auth.step jwt)
      (ClosedSince (run (Auth.step jwt) (begin db requests) (before ++ [.turn i])).store session.userId)
      (run (Auth.step jwt) (begin db requests) (before ++ [.turn i])) after := by
  rw [run_append]
  have h := closed_of_report jwt (reads_run db requests before) hi hnone
  exact (always_of_step (fun _ e hc => hc.step e) h).mono fun _ hc => hc.closedSince

end Runs

/-- Somebody signs in and refreshes; the old token is presented again; and the new one is refreshed too. -/
def replay : Fin 4 → Request
  | 0 => .signIn ⟨1⟩ { sessionId := ⟨10⟩, refreshToken := "a", jti := 1 }
  | 1 => .refresh "a" { sessionId := ⟨11⟩, refreshToken := "b", jti := 2 }
  | 2 => .refresh "a" { sessionId := ⟨12⟩, refreshToken := "c", jti := 3 }
  | 3 => .refresh "b" { sessionId := ⟨13⟩, refreshToken := "d", jti := 4 }

/-- The session the replayed token belongs to, once it has been exchanged. -/
def exchangedSession : Session where
  id := ⟨10⟩
  userId := ⟨1⟩
  refreshTokenHash := "sha256:a"
  expiresAt := 30 * 24 * 3600 * 1000000
  revokedAt := some 0
  createdAt := 0

/-- The token is replayed before anything else is in flight: the refresh of the new token comes too late. -/
theorem account_closed_in_turn :
    Always (step hourly)
      (ClosedSince (run (step hourly) (begin oneAccount replay)
        ([.turn 0, .turn 1, .turn 1, .turn 1, .turn 1, .turn 2] ++ [.turn 2])).store exchangedSession.userId)
      (run (step hourly) (begin oneAccount replay)
        ([.turn 0, .turn 1, .turn 1, .turn 1, .turn 1, .turn 2] ++ [.turn 2])) [.turn 3, .turn 3] := by
  have hi : (run (step hourly) (begin oneAccount replay)
      [.turn 0, .turn 1, .turn 1, .turn 1, .turn 1, .turn 2]).calls 2 = .reusing exchangedSession := by decide +kernel
  have hnone : ∀ j, inFlight (run (step hourly) (begin oneAccount replay)
      [.turn 0, .turn 1, .turn 1, .turn 1, .turn 1, .turn 2]).store exchangedSession.userId
      ((run (step hourly) (begin oneAccount replay)
        [.turn 0, .turn 1, .turn 1, .turn 1, .turn 1, .turn 2]).calls j) = false := by decide +kernel
  exact reuse_closes_account _ _ _ _ _ _ hi hnone

/-- The token is replayed while the refresh of the new one is past its revocation. -/
def replayInFlight : List (Event (Fin 4) Timestamp) :=
  [.turn 0, .turn 1, .turn 1, .turn 1, .turn 1, .turn 3, .turn 3, .turn 3, .turn 2]

/-- What the refresh of the new token hands out afterwards. -/
def pairAfterReuse : TokenPair where
  accessToken := { iss := "genzh", aud := "web", sub := ⟨1⟩, sid := ⟨13⟩, jti := 4, iat := 0, exp := 3600, typ := "access" }
  refreshToken := "d"
  expiresIn := 3600
  tokenType := "Bearer"

/-- The reuse is reported, every call is over, and a session that descends from one of the account's is usable. -/
theorem session_survives_reuse :
    ¬ Always (step hourly)
        (ClosedSince (run (step hourly) (begin oneAccount replay) (replayInFlight ++ [.turn 2])).store ⟨1⟩)
        (run (step hourly) (begin oneAccount replay) (replayInFlight ++ [.turn 2])) [.turn 3] ∧
      (run (step hourly) (begin oneAccount replay) (replayInFlight ++ [.turn 2] ++ [.turn 3])).calls 2 =
        .reported exchangedSession ∧
      (run (step hourly) (begin oneAccount replay) (replayInFlight ++ [.turn 2] ++ [.turn 3])).calls 3 =
        .renewed ⟨11⟩ ⟨13⟩ (.ok pairAfterReuse) ∧
      usable (run (step hourly) (begin oneAccount replay) (replayInFlight ++ [.turn 2] ++ [.turn 3])).store ⟨13⟩ = true := by
  have howns : owns (run (step hourly) (begin oneAccount replay) (replayInFlight ++ [.turn 2])).store ⟨1⟩ ⟨11⟩ = true := by
    decide +kernel
  have hcall : (run (step hourly) (begin oneAccount replay) (replayInFlight ++ [.turn 2] ++ [.turn 3])).calls 3 =
      .renewed ⟨11⟩ ⟨13⟩ (.ok pairAfterReuse) := by decide +kernel
  have husable : usable (run (step hourly) (begin oneAccount replay) (replayInFlight ++ [.turn 2] ++ [.turn 3])).store
      ⟨13⟩ = true := by decide +kernel
  refine ⟨fun h => ?_, by decide +kernel, hcall, husable⟩
  rw [run_append] at hcall husable
  have hend := h.last.ended ⟨11⟩ ⟨13⟩ howns (.single ⟨3, _, hcall⟩)
  rw [hend] at husable
  cases husable

end Genzh.Auth
