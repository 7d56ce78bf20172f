/-
The tokens of whoever is signed in, as the web app and the mobile app keep them. An expired access token is renewed with
the refresh token, once for all who ask meanwhile. Sign-ins and sign-outs do not wait for a renewal under way, and it does
not look whether the session it was begun for is still the one held.
-/
import Genzh.Domain.Basic
import Genzh.Lib.SingleUse

namespace Genzh.Client.Tokens

open Genzh.Lib Genzh.Domain

structure TokenPair where
  accessToken : String
  refreshToken : String
  /-- In seconds. -/
  expiresIn : Int
  deriving DecidableEq, Repr

structure Session where
  accessToken : String
  refreshToken : String
  /-- Epoch milliseconds at which the access token expires. -/
  expiresAt : Int
  deriving DecidableEq, Repr

/-- The session of a token pair, to be refreshed a minute early. -/
def Session.new (tokens : TokenPair) (now : Int) : Session where
  accessToken := tokens.accessToken
  refreshToken := tokens.refreshToken
  expiresAt := now + max 0 (tokens.expiresIn - 60) * 1000

inductive Platform where
  | web
  | mobile
  deriving DecidableEq, Repr

/-- How far a refresh has got. -/
inductive Stage where
  | asked
  /-- Its answer is being written to the device. Only the mobile app waits for that, and a write that fails fails the
  refresh. -/
  | keeping (next : Session) (written : Bool)
  deriving DecidableEq, Repr

structure Refresh where
  refreshToken : String
  stage : Stage
  /-- A logout, or a login that replaced the session, has come since it began. Nothing reads it. -/
  overtaken : Bool
  deriving DecidableEq, Repr

/-- The session a refresh has been answered with. -/
def Refresh.next (r : Refresh) : Option Session :=
  match r.stage with
  | .asked => none
  | .keeping next _ => some next

structure AuthProvider where
  session : Option Session
  /-- What the device holds once the writes asked for are done. They are done in order. -/
  stored : Option Session
  user : Option UserId
  refreshing : Option Refresh
  /-- Logins whose session is being written to the device, in the mobile app. -/
  adopting : List (Session × UserId)
  /-- The refresh tokens the server was shown, in order. -/
  presented : List String
  /-- The refresh tokens the server has given out. -/
  issued : List String
  deriving DecidableEq, Repr

/-- What `getToken` comes to. -/
inductive Answer where
  /-- `ApiError(401, 'UNAUTHENTICATED', 'Not signed in')`. -/
  | unauthenticated
  | token (accessToken : String)
  /-- The promise of the refresh under way. -/
  | refreshing
  deriving DecidableEq, Repr

inductive Event where
  | getToken (now : Int)
  /-- The server answers the refresh, and the device takes the session or not. -/
  | refreshed (tokens : TokenPair) (now : Int) (writes : Bool)
  /-- The refresh is refused, or the server is out of reach. -/
  | refused
  /-- The write of the refresh's answer is over. -/
  | kept
  /-- The server answers a login, or a registration. -/
  | login (tokens : TokenPair) (user : UserId) (now : Int) (writes : Bool)
  /-- The write of the session of a login is over. -/
  | adopted (i : Nat)
  | logout
  deriving DecidableEq, Repr

/-- Part of a refresh's completion. -/
def Event.completes : Event → Bool
  | .refreshed _ _ _ => true
  | .refused => true
  | .kept => true
  | _ => false

namespace AuthProvider

/-- As the app starts. -/
def new (stored : Option Session) : AuthProvider where
  session := stored
  stored := stored
  user := none
  refreshing := none
  adopting := []
  presented := []
  issued := (stored.map (·.refreshToken)).toList

/-- The refresh token of the session held. -/
def current (s : AuthProvider) : Option String := s.session.map (·.refreshToken)

/-- The refresh token being renewed. -/
def renewing (s : AuthProvider) : Option String := s.refreshing.map (·.refreshToken)

/-- `saveSession`, and the write `persist` waits for. -/
def save (next : Session) (writes : Bool) (s : AuthProvider) : AuthProvider :=
  { s with stored := if writes then some next else s.stored }

def signOutLocally (s : AuthProvider) : AuthProvider := { s with session := none, stored := none, user := none }

def overtake (s : AuthProvider) : AuthProvider :=
  { s with refreshing := s.refreshing.map fun r => { r with overtaken := true } }

def getToken (now : Int) (s : AuthProvider) : Answer × AuthProvider :=
  match s.session with
  | none => (.unauthenticated, s)
  | some current =>
    if now < current.expiresAt then (.token current.accessToken, s)
    else if s.refreshing.isSome then (.refreshing, s)
    else
      (.refreshing, { s with
        refreshing := some ⟨current.refreshToken, .asked, false⟩
        presented := s.presented ++ [current.refreshToken] })

def refreshed (p : Platform) (tokens : TokenPair) (now : Int) (writes : Bool) (s : AuthProvider) : AuthProvider :=
  match s.refreshing with
  | some ⟨refreshToken, .asked, overtaken⟩ =>
    let next := Session.new tokens now
    let s := { s with issued := s.issued ++ [tokens.refreshToken] }.save next writes
    match p with
    | .web => { s with session := some next, refreshing := none }
    | .mobile => { s with refreshing := some ⟨refreshToken, .keeping next writes, overtaken⟩ }
  | _ => s

/-- A refresh failure is terminal. -/
def refused (s : AuthProvider) : AuthProvider :=
  match s.refreshing with
  | some ⟨_, .asked, _⟩ => { s.signOutLocally with refreshing := none }
  | _ => s

def kept (s : AuthProvider) : AuthProvider :=
  match s.refreshing with
  | some ⟨_, .keeping next true, _⟩ => { s with session := some next, refreshing := none }
  | some ⟨_, .keeping _ false, _⟩ => { s.signOutLocally with refreshing := none }
  | _ => s

/-- Take up the session of a login. -/
def adopt (next : Session) (user : UserId) (s : AuthProvider) : AuthProvider :=
  { s with session := some next, user := some user }.overtake

def login (p : Platform) (tokens : TokenPair) (user : UserId) (now : Int) (writes : Bool) (s : AuthProvider) :
    AuthProvider :=
  let next := Session.new tokens now
  let s := { s with issued := s.issued ++ [tokens.refreshToken] }.save next writes
  match p with
  | .web => s.adopt next user
  | .mobile => if writes then { s with adopting := s.adopting ++ [(next, user)] } else s

def adopted (i : Nat) (s : AuthProvider) : AuthProvider :=
  match s.adopting[i]? with
  | some (next, user) => { s with adopting := s.adopting.eraseIdx i }.adopt next user
  | none => s

/-- Sign out locally first, then tell the server. -/
def logout (s : AuthProvider) : AuthProvider :=
  { s.signOutLocally with presented := s.presented ++ s.current.toList }.overtake

def step (p : Platform) (s : AuthProvider) : Event → AuthProvider
  | .getToken now => (s.getToken now).2
  | .refreshed tokens now writes => s.refreshed p tokens now writes
  | .refused => s.refused
  | .kept => s.kept
  | .login tokens user now writes => s.login p tokens user now writes
  | .adopted i => s.adopted i
  | .logout => s.logout

/-! ## What a step leaves -/

/-- The tokens of sessions that are being written. -/
def waiting (s : AuthProvider) : List String :=
  (s.refreshing.bind Refresh.next).toList.map (·.refreshToken) ++ s.adopting.map (·.1.refreshToken)

/-- The tokens add up, and what is stored is one of the server's. -/
structure Sound (s : AuthProvider) : Prop where
  account : Accounted s.current s.waiting s.renewing s.presented s.issued
  stored : ∀ next, s.stored = some next → next.refreshToken ∈ s.issued

theorem sound_new (stored : Option Session) : (new stored).Sound where
  account := by
    cases stored <;> constructor <;> simp [new, current, waiting, renewing]
  stored := by
    rintro next ⟨⟩
    exact List.mem_singleton_self _

variable {p : Platform} {s : AuthProvider}

theorem overtake_waiting (s : AuthProvider) : s.overtake.waiting = s.waiting := by
  unfold overtake waiting
  cases s.refreshing <;> rfl

theorem overtake_renewing (s : AuthProvider) : s.overtake.renewing = s.renewing := by
  unfold overtake renewing
  cases s.refreshing <;> rfl

theorem Sound.overtake (h : s.Sound) : s.overtake.Sound where
  account := by
    rw [overtake_waiting, overtake_renewing]
    exact h.account
  stored := h.stored

/-- What has been answered is noted, and the device takes the session or not. -/
theorem Sound.stored_save (h : s.Sound) (tokens : TokenPair) (now : Int) (writes : Bool) {next : Session}
    (hnext : (s.save (Session.new tokens now) writes).stored = some next) :
    next.refreshToken ∈ s.issued ++ [tokens.refreshToken] := by
  unfold save at hnext
  dsimp only at hnext
  split at hnext
  · cases hnext
    exact List.mem_append_right _ (List.mem_singleton_self _)
  · exact List.mem_append_left _ (h.stored next hnext)

theorem getToken_cases (now : Int) (s : AuthProvider) : (s.getToken now).2 = s ∨
    ∃ current, s.session = some current ∧ s.refreshing = none ∧ (s.getToken now).2 = { s with
      refreshing := some ⟨current.refreshToken, .asked, false⟩
      presented := s.presented ++ [current.refreshToken] } := by
  unfold getToken
  cases hs : s.session with
  | none => exact .inl rfl
  | some current =>
    dsimp only
    split
    · exact .inl rfl
    · split
      · exact .inl rfl
      · rename_i hr
        rw [Bool.not_eq_true, Option.isSome_eq_false_iff, Option.isNone_iff_eq_none] at hr
        exact .inr ⟨current, rfl, hr, rfl⟩

theorem Sound.getToken (h : s.Sound) (now : Int) : (s.getToken now).2.Sound := by
  rcases getToken_cases now s with hs | ⟨current, hsession, hrefreshing, hs⟩ <;> rw [hs]
  · exact h
  · refine ⟨?_, h.stored⟩
    have haccount := h.account
    unfold AuthProvider.current waiting renewing at haccount ⊢
    rw [hsession, hrefreshing] at haccount
    rw [hsession]
    exact haccount.begins

/-! ### A refresh that has been asked for -/

section Asked

variable {token : String} {overtaken : Bool} (hasked : s.refreshing = some ⟨token, .asked, overtaken⟩)

include hasked

theorem refreshed_web (tokens : TokenPair) (now : Int) (writes : Bool) : s.refreshed .web tokens now writes =
    { s with
      session := some (.new tokens now)
      stored := (s.save (.new tokens now) writes).stored
      refreshing := none
      issued := s.issued ++ [tokens.refreshToken] } := by
  unfold refreshed
  rw [hasked]
  rfl

theorem refreshed_mobile (tokens : TokenPair) (now : Int) (writes : Bool) : s.refreshed .mobile tokens now writes =
    { s with
      stored := (s.save (.new tokens now) writes).stored
      refreshing := some ⟨token, .keeping (.new tokens now) writes, overtaken⟩
      issued := s.issued ++ [tokens.refreshToken] } := by
  unfold refreshed
  rw [hasked]
  rfl

theorem refused_of_asked : s.refused = { s.signOutLocally with refreshing := none } := by
  unfold refused
  rw [hasked]

theorem account_of_asked (h : s.Sound) :
    Accounted s.current (s.adopting.map (·.1.refreshToken)) (some token) s.presented s.issued := by
  have haccount := h.account
  unfold waiting renewing at haccount
  rw [hasked] at haccount
  exact haccount

theorem Sound.refreshed_of_asked (h : s.Sound) (tokens : TokenPair) (now : Int) (writes : Bool)
    (hfresh : tokens.refreshToken ∉ s.issued) : (s.refreshed p tokens now writes).Sound := by
  have hissued := (account_of_asked hasked h).issues hfresh
  cases p with
  | web =>
    rw [refreshed_web hasked]
    refine ⟨?_, fun next => h.stored_save tokens now writes⟩
    refine hissued.adopts (.refl _) ?_
    rintro u ⟨⟩
  | mobile =>
    rw [refreshed_mobile hasked]
    exact ⟨hissued, fun next => h.stored_save tokens now writes⟩

theorem Sound.refused_of_asked (h : s.Sound) : s.refused.Sound := by
  rw [AuthProvider.refused_of_asked hasked]
  refine ⟨?_, by rintro next ⟨⟩⟩
  refine (account_of_asked hasked h).signsOut (.refl _) ?_
  rintro u ⟨⟩

end Asked

/-! ### A refresh whose answer is being written -/

section Keeping

variable {token : String} {next : Session} {written overtaken : Bool}
  (hkeeping : s.refreshing = some ⟨token, .keeping next written, overtaken⟩)

include hkeeping

theorem kept_of_keeping : s.kept =
    { s with
      session := if written then some next else none
      stored := if written then s.stored else none
      user := if written then s.user else none
      refreshing := none } := by
  unfold kept
  rw [hkeeping]
  cases written <;> rfl

theorem account_of_keeping (h : s.Sound) : Accounted s.current
    (next.refreshToken :: s.adopting.map (·.1.refreshToken)) (some token) s.presented s.issued := by
  have haccount := h.account
  unfold waiting renewing at haccount
  rw [hkeeping] at haccount
  exact haccount

theorem Sound.kept_of_keeping (h : s.Sound) : s.kept.Sound := by
  rw [AuthProvider.kept_of_keeping hkeeping]
  have haccount := account_of_keeping hkeeping h
  cases written with
  | true =>
    refine ⟨?_, h.stored⟩
    refine haccount.adopts (.refl _) ?_
    rintro u ⟨⟩
  | false =>
    refine ⟨?_, by rintro x ⟨⟩⟩
    refine haccount.signsOut (List.sublist_cons_self _ _) ?_
    rintro u ⟨⟩

end Keeping

theorem Sound.refreshed (h : s.Sound) (tokens : TokenPair) (now : Int) (writes : Bool)
    (hfresh : tokens.refreshToken ∉ s.issued) : (s.refreshed p tokens now writes).Sound := by
  rcases hr : s.refreshing with _ | ⟨token, _ | ⟨next, written⟩, overtaken⟩
  · unfold AuthProvider.refreshed
    rwa [hr]
  · exact h.refreshed_of_asked hr tokens now writes hfresh
  · unfold AuthProvider.refreshed
    rwa [hr]

theorem Sound.refused (h : s.Sound) : s.refused.Sound := by
  rcases hr : s.refreshing with _ | ⟨token, _ | ⟨next, written⟩, overtaken⟩
  · unfold AuthProvider.refused
    rwa [hr]
  · exact h.refused_of_asked hr
  · unfold AuthProvider.refused
    rwa [hr]

theorem Sound.kept (h : s.Sound) : s.kept.Sound := by
  rcases hr : s.refreshing with _ | ⟨token, _ | ⟨next, written⟩, overtaken⟩
  · unfold AuthProvider.kept
    rwa [hr]
  · unfold AuthProvider.kept
    rwa [hr]
  · exact h.kept_of_keeping hr

/-! ### Logins and logouts -/

theorem Sound.login (h : s.Sound) (tokens : TokenPair) (user : UserId) (now : Int) (writes : Bool)
    (hfresh : tokens.refreshToken ∉ s.issued) : (s.login p tokens user now writes).Sound := by
  have hissued := h.account.issues hfresh
  cases p with
  | web =>
    refine Sound.overtake ⟨?_, fun next => h.stored_save tokens now writes⟩
    exact hissued.adopts (.refl _) fun _ => id
  | mobile =>
    cases writes with
    | true =>
      refine ⟨hissued.rests ?_, fun next => h.stored_save tokens now true⟩
      refine List.Perm.subperm ?_
      change (_ ++ (s.adopting ++ [_]).map _).Perm _
      rw [List.map_append, ← List.append_assoc]
      exact List.perm_append_singleton _ _
    | false => exact ⟨hissued.rests (List.sublist_cons_self _ _).subperm, fun next => h.stored_save tokens now false⟩

theorem Sound.adopted (h : s.Sound) (i : Nat) : (s.adopted i).Sound := by
  unfold AuthProvider.adopted
  rcases hi : s.adopting[i]? with _ | ⟨next, user⟩
  · exact h
  · refine Sound.overtake ⟨?_, h.stored⟩
    refine h.account.adopts ?_ fun _ => id
    obtain ⟨hlt, hget⟩ := List.getElem?_eq_some_iff.1 hi
    have hperm := (List.getElem_cons_eraseIdx_perm hlt).map fun x => x.1.refreshToken
    rw [hget] at hperm
    exact (hperm.symm.append_left _).trans List.perm_middle

theorem Sound.logout (h : s.Sound) : s.logout.Sound := by
  refine Sound.overtake ⟨?_, by rintro next ⟨⟩⟩
  have haccount := h.account
  change Accounted none s.waiting s.renewing (s.presented ++ s.current.toList) s.issued
  cases hs : s.current with
  | none =>
    rw [hs] at haccount
    simpa using haccount
  | some t =>
    rw [hs] at haccount
    exact haccount.logsOut

/-- The server answers with a refresh token it has not given out before. -/
def Issues (s : AuthProvider) : Event → Prop
  | .refreshed tokens _ _ => tokens.refreshToken ∉ s.issued
  | .login tokens _ _ _ => tokens.refreshToken ∉ s.issued
  | _ => True

theorem Sound.step (h : s.Sound) {e : Event} (hissues : s.Issues e) : (s.step p e).Sound := by
  cases e with
  | getToken now => exact h.getToken now
  | refreshed tokens now writes => exact h.refreshed tokens now writes hissues
  | refused => exact h.refused
  | kept => exact h.kept
  | login tokens user now writes => exact h.login tokens user now writes hissues
  | adopted i => exact h.adopted i
  | logout => exact h.logout

end AuthProvider

end Genzh.Client.Tokens
