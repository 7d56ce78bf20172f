/-
The account an identity is linked to. A link is never moved once it is there, so at most one sign-in of an
identity provisions an account for it, in whatever order their statements come. A sign-in that finds no
link and then links the identity to the account with its address is told nothing of a link that was made
in between: it goes on with the account it has found. Where every linking finds the identity free, or
linked to the same account, every sign-in opens the account its identity is linked to.
-/
import Genzh.Auth.SignIns

namespace Genzh.Auth.SignIn

open Genzh.Lib Genzh.Domain Genzh.Infrastructure

/-- The account an identity is linked to. -/
def owner (db : Db) (identity : String × String) : Option UserId := (db.oauthAccounts.find identity).map (·.userId)

section Property

variable (auth : AuthService) {I : Type} (jobs : I → Job)

/-- At most one sign-in of an identity has provisioned an account. -/
def ProvisionedOnce (σ : SignIns I) : Prop :=
  ∀ i j, (jobs i).identity = (jobs j).identity → provisions (σ.calls i) = true → provisions (σ.calls j) = true → i = j

/-- Has the sign-in returned? -/
def hasReturned : Call → Bool
  | .finished .. => true
  | _ => false

variable [DecidableEq I]

/-- A sign-in that returns in this event has started a session of the account its identity is linked to. -/
def OpensLinked (σ : SignIns I) : Event I Db → Prop
  | .turn i => ∀ isNew u tokens, hasReturned (σ.calls i) = false →
      (step auth jobs σ (.turn i)).calls i = .finished isNew (.ok (u, tokens)) →
      owner (step auth jobs σ (.turn i)).store (jobs i).identity = some u.user.id ∧
        tokens.accessToken.sub = u.user.id ∧
        ∃ row, (step auth jobs σ (.turn i)).store.sessions.find tokens.accessToken.sid = some row ∧
          row.userId = u.user.id ∧ row.refreshTokenHash = auth.jwt.hashRefreshToken tokens.refreshToken
  | .outside _ => True

/-- A sign-in that is about to link its identity to an account finds it linked to no other. -/
def linksOwn (σ : SignIns I) : Event I Db → Bool
  | .turn i =>
    match σ.calls i with
    | .matched user _ => (owner σ.store (jobs i).identity).all fun u => u = user.id
    | _ => true
  | .outside _ => true

end Property

/-! ## Links last -/

section Links

variable {auth : AuthService} {job : Job} {db db' : Db} {c c' : Call} {identity : String × String} {u : UserId}

theorem owner_linked (account : OAuthAccount) (db : Db) (identity : String × String) :
    owner (linked account db) identity =
      if (account.provider, account.providerUserId) = identity then some ((owner db identity).getD account.userId)
      else owner db identity := by
  unfold owner linked
  rw [Table.find_upsert]
  by_cases hk : key account = identity
  · rw [if_pos hk, if_pos (show (account.provider, account.providerUserId) = identity from hk)]
    rcases db.oauthAccounts.find identity with _ | link <;> rfl
  · rw [if_neg hk, if_neg (show ¬ (account.provider, account.providerUserId) = identity from hk)]

theorem owner_linkTo (userId : UserId) (email : String) (db : Db) :
    owner (linked (linkTo userId job.input email) db) job.identity = some ((owner db job.identity).getD userId) := by
  have hkey : ((linkTo userId job.input email).provider, (linkTo userId job.input email).providerUserId) = job.identity := rfl
  rw [owner_linked, if_pos hkey]
  rfl

theorem owner_inserted (handle : String) (db : Db) (identity : String × String) :
    owner (job.inserted auth handle db) identity =
      (owner db identity).or (if job.identity = identity then some job.draw.userId else none) := by
  unfold owner Job.inserted provisionedIn
  rw [Table.find_insert]
  rcases hf : db.oauthAccounts.find identity with _ | link
  · by_cases hk : job.identity = identity
    · rw [if_pos hk, if_pos (show key (linkTo _ job.input _) = identity from hk)]
      rfl
    · rw [if_neg hk, if_neg (show ¬ key (linkTo _ job.input _) = identity from hk)]
      rfl
  · rfl

theorem contains_iff_owner : db.oauthAccounts.contains identity = true ↔ ∃ u, owner db identity = some u := by
  unfold owner Table.contains
  rcases db.oauthAccounts.find identity with _ | link <;> simp

theorem Statement.owner_lasts (h : Statement auth job db c c' db') (hu : owner db identity = some u) :
    owner db' identity = some u := by
  cases h with
  | link =>
    rw [owner_linked, hu]
    split <;> rfl
  | create =>
    rw [owner_inserted, hu]
    rfl
  | _ => exact hu

end Links

/-! ## One provisioning -/

/-- Whoever has provisioned an account has left the identity linked. -/
def LeavesLink (job : Job) (c : Call) (db : Db) : Prop := provisions c = true → ∃ u, owner db job.identity = some u

section Once

variable {auth : AuthService} {job : Job} {db db' : Db} {c c' : Call}

theorem Statement.leavesLink (h : Statement auth job db c c' db') (hl : LeavesLink job c db) : LeavesLink job c' db' := by
  intro hp
  cases h with
  | create hfree =>
    refine ⟨job.draw.userId, ?_⟩
    have hnone : owner db job.identity = none := by
      unfold owner
      rw [Table.contains_eq_false.1 hfree]
      rfl
    rw [owner_inserted, hnone, if_pos rfl]
    rfl
  | session | refuse | rest => exact hl hp
  | _ => cases hp

/-- A sign-in provisions by inserting the account, which finds the identity free, and by nothing else. -/
theorem Statement.provisions (h : Statement auth job db c c' db') (hp : provisions c' = true) :
    provisions c = true ∨ db.oauthAccounts.contains job.identity = false := by
  cases h with
  | create hfree => exact .inr hfree
  | session | refuse | rest => exact .inl hp
  | _ => cases hp

end Once

section Runs

variable {I : Type} [DecidableEq I] {auth : AuthService} {jobs : I → Job} {σ : SignIns I}

/-- One identity is provisioned at most once, and whoever has provisioned has left it linked. -/
def OneProvisioning (jobs : I → Job) (identity : String × String) : SignIns I → Prop :=
  System.Outline (fun _ => True) (fun i => LeavesLink (jobs i)) fun i c => (jobs i).identity = identity ∧ provisions c = true

theorem OneProvisioning.step {identity : String × String} (h : OneProvisioning jobs identity σ) (e : Event I Db) :
    OneProvisioning jobs identity (step auth jobs σ e) := by
  cases e with
  | outside written => exact h.elsewhere trivial h.own
  | turn i =>
    have hs := advance_statement auth (jobs i) (σ.calls i) σ.store
    refine System.Outline.turn h trivial (hs.leavesLink (h.own i)) (fun j _ hp => ?_) ?_
    · obtain ⟨u, hu⟩ := h.own j hp
      exact ⟨u, hs.owner_lasts hu⟩
    · rintro ⟨hid, hp⟩
      rcases hs.provisions hp with hpi | hfree
      · exact .inl ⟨hid, hpi⟩
      · -- the identity is free, so nobody has provisioned it before
        right
        rintro j - ⟨hidj, hpj⟩
        have hlink := contains_iff_owner.2 (h.own j hpj)
        rw [hidj, ← hid, hfree] at hlink
        cases hlink

/-! ## The account a sign-in opens -/

/-- The account a sign-in has settled on is the one its identity is linked to. -/
def Opens (job : Job) (c : Call) (db : Db) : Prop :=
  match c with
  | .linkedTo userId => owner db job.identity = some userId
  | .known user => owner db job.identity = some user.id
  | .profiled u | .created u => owner db job.identity = some u.user.id
  | _ => True

theorem Statement.opens_other {job job' : Job} {db db' : Db} {c c' d : Call} (h : Statement auth job' db c c' db')
    (hd : Opens job d db) : Opens job d db' := by
  cases d with
  | linkedTo | known | profiled | created => exact h.owner_lasts hd
  | _ => trivial

theorem Statement.opens {job : Job} {db db' : Db} {c c' : Call} (h : Statement auth job db c c' db') (hc : Opens job c db)
    (hlinks : ∀ user email, c = .matched user email → ∀ u, owner db job.identity = some u → u = user.id) :
    Opens job c' db' := by
  cases h with
  | @foundLink link hfind =>
    unfold Opens owner
    rw [hfind]
    rfl
  | @load userId user hfind =>
    have huser : user.id = userId := Table.find_key hfind
    have hc : owner db job.identity = some userId := hc
    rw [← huser] at hc
    exact hc
  | @link user email =>
    change owner (linked _ db) job.identity = some user.id
    rw [owner_linkTo]
    rcases ho : owner db job.identity with _ | u
    · rfl
    · rw [hlinks user email rfl u ho]
      rfl
  | profile => exact hc
  | @create handle hfree =>
    have hnone : owner db job.identity = none := by
      unfold owner
      rw [Table.contains_eq_false.1 hfree]
      rfl
    change owner (job.inserted auth handle db) job.identity = some job.draw.userId
    rw [owner_inserted, hnone, if_pos rfl]
    rfl
  | _ => trivial

/-- The last statement of a sign-in that succeeds has inserted a session of the account it has settled on. -/
theorem Statement.returns {job : Job} {db db' : Db} {c : Call} {isNew : Bool} {u : AuthenticatedUser} {tokens : TokenPair}
    (h : Statement auth job db c (.finished isNew (.ok (u, tokens))) db') (hc : hasReturned c = false) (ho : Opens job c db) :
    owner db' job.identity = some u.user.id ∧ tokens.accessToken.sub = u.user.id ∧
      ∃ row, db'.sessions.find tokens.accessToken.sid = some row ∧ row.userId = u.user.id ∧
        row.refreshTokenHash = auth.jwt.hashRefreshToken tokens.refreshToken := by
  generalize hres : Call.finished isNew (.ok (u, tokens)) = c' at h
  cases h with
  | @session c v s hcv hs hi =>
    rcases ht : tokenPair auth.jwt v.user.id job.draw.session db.now with _ | pair
    · rw [ht] at hres
      cases hres
    · rw [ht] at hres
      cases hres
      obtain ⟨hsub, hsid, htoken⟩ := tokenPair_some ht
      obtain ⟨hid, huser, -, hhash⟩ := newSession_some hs
      refine ⟨?_, hsub, { s with createdAt := db.now }, ?_, huser, hhash.trans (by rw [htoken])⟩
      · rcases hcv with rfl | rfl <;> exact ho
      · rw [find_inserted hi, hsid, if_pos hid]
  | rest => cases hc
  | _ => cases hres

/-- Every sign-in is on the account its identity is linked to. -/
def OnLinked (jobs : I → Job) : SignIns I → Prop :=
  System.Outline (fun _ => True) (fun i => Opens (jobs i)) fun _ _ => False

theorem OnLinked.step (h : OnLinked jobs σ) {e : Event I Db} (hlinks : linksOwn jobs σ e = true) :
    OnLinked jobs (step auth jobs σ e) ∧ OpensLinked auth jobs σ e := by
  cases e with
  | outside written =>
    refine ⟨h.elsewhere trivial fun i => ?_, trivial⟩
    have hown := h.own i
    cases hc : σ.calls i with
    | linkedTo | known | profiled | created =>
      rw [hc] at hown
      exact hown
    | _ => trivial
  | turn i =>
    have hs := advance_statement auth (jobs i) (σ.calls i) σ.store
    have hown : ∀ user email, σ.calls i = .matched user email → ∀ u, owner σ.store (jobs i).identity = some u → u = user.id := by
      intro user email hc u hu
      simpa [linksOwn, hc, hu] using hlinks
    refine ⟨System.Outline.turn h trivial (hs.opens (h.own i) hown) (fun j _ => hs.opens_other (h.own j)) fun hx => hx.elim, ?_⟩
    intro isNew u tokens hover hfin
    have hself : (SignIn.step auth jobs σ (.turn i)).calls i = (advance auth (jobs i) (σ.calls i) σ.store).1 :=
      System.calls_turn_self σ i
    rw [← hself, hfin] at hs
    exact hs.returns hover (h.own i)

/-- Over every schedule of any sign-ins, from any database, and whatever else is written to it meanwhile but the
links: no identity is provisioned twice. Where every linking finds the identity free or linked to the same
account, every sign-in that returns a session returns one of the account its identity is linked to then. -/
theorem opens_linked_account (auth : AuthService) (jobs : I → Job) (db : Db) (es : List (Event I Db))
    (hlinks : Along (step auth jobs) (fun σ e => linksOwn jobs σ e = true) (begin db) es) :
    Always (step auth jobs) (ProvisionedOnce jobs) (begin db) es ∧
      Along (step auth jobs) (OpensLinked auth jobs) (begin db) es := by
  constructor
  · have h : Always (step auth jobs) (fun σ => ∀ identity, OneProvisioning jobs identity σ) (begin db) es := by
      refine always_of_step (fun σ e h identity => (h identity).step e) fun identity => ?_
      refine ⟨trivial, fun i hp => ?_, fun i j hi => ?_⟩
      · cases hp
      · cases hi.2
    exact h.mono fun σ h i j hid hi hj => (h (jobs j).identity).exclusive i j ⟨hid, hi⟩ ⟨rfl, hj⟩
  · have h0 : OnLinked jobs (begin db) := ⟨trivial, fun _ => trivial, fun _ _ hx => hx.elim⟩
    exact along_of_along (fun σ e h hc => h.step hc) h0 hlinks

end Runs

/-! ### An address that changes -/

/-- An identity at a provider, with the address it has there at the time. -/
def ofAddress (email : String) (draw : OAuthDraw) : Job where
  input :=
    { provider := "google", providerUserId := "42", email := some email, suggestedHandle := none, displayName := none,
      avatarUrl := none }
  draw := draw

def firstDraw : OAuthDraw where
  userId := ⟨3⟩
  session := { sessionId := ⟨10⟩, refreshToken := "a", jti := 1 }
  suffixes := []
  handle := 5

def secondDraw : OAuthDraw where
  userId := ⟨4⟩
  session := { sessionId := ⟨11⟩, refreshToken := "b", jti := 2 }
  suffixes := []
  handle := 6

/-- One identity signs in with the address of ana, and again after its address has become that of ben. -/
def changedAddress : Bool → Job
  | false => ofAddress "ana@genzh.test" firstDraw
  | true => ofAddress "ben@genzh.test" secondDraw

/-- One sign-in after the other: the second opens the account of ana as well. -/
theorem opens_linked_account_in_turn :
    Always (step asciiAuth changedAddress) (ProvisionedOnce changedAddress) (begin twoAccounts)
        (List.replicate 5 (.turn false) ++ List.replicate 4 (.turn true)) ∧
      Along (step asciiAuth changedAddress) (OpensLinked asciiAuth changedAddress) (begin twoAccounts)
        (List.replicate 5 (.turn false) ++ List.replicate 4 (.turn true)) :=
  opens_linked_account asciiAuth changedAddress twoAccounts _ (by decide +kernel)

/-- The second takes each of its statements right after the first has taken the same one. -/
def alternating : List (Event Bool Db) :=
  [.turn false, .turn true, .turn false, .turn true, .turn false, .turn true, .turn false, .turn true, .turn false]

/-- Both find no link, and the second is handed a session of ben while the identity is linked to ana. -/
theorem opens_unlinked_account :
    ¬ Along (step asciiAuth changedAddress) (OpensLinked asciiAuth changedAddress) (begin twoAccounts)
        (alternating ++ [.turn true]) ∧
      owner (run (step asciiAuth changedAddress) (begin twoAccounts) (alternating ++ [.turn true])).store ("google", "42") =
        some ⟨1⟩ := by
  have howner : owner (run (step asciiAuth changedAddress) (begin twoAccounts) (alternating ++ [.turn true])).store
      ("google", "42") = some ⟨1⟩ := by decide +kernel
  refine ⟨fun h => ?_, howner⟩
  rw [along_append] at h
  have hlast := h.2.1 false
    { user := { id := ⟨2⟩, handle := "ben", email := "ben@genzh.test", isActive := true }
      profile := { userId := ⟨2⟩, displayName := "ben", avatarUrl := none } }
    { accessToken := { iss := "genzh", aud := "web", sub := ⟨2⟩, sid := ⟨11⟩, jti := 2, iat := 0, exp := 3600, typ := "access" }
      refreshToken := "b"
      expiresIn := 3600
      tokenType := "Bearer" }
    (by decide +kernel) (by decide +kernel)
  rw [run_append] at howner
  have hother := hlast.1
  change owner (run (step asciiAuth changedAddress) _ [.turn true]).store ("google", "42") = some ⟨2⟩ at hother
  rw [howner] at hother
  exact absurd hother (by decide)

end Genzh.Auth.SignIn
