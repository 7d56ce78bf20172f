/-
The OAuth sign-in endpoints. `authorize` sends a browser off to a provider with a state of its own, and
`callback` takes what it comes back with, has the provider trade the code for a profile and signs its
owner in. The state is written down nowhere and not looked at again, so a callback that starts a session
may carry any state or none. Where every callback whose code is traded brings back a state that was issued
to its browser and not used yet, only such callbacks start sessions.

What the provider answers to a code comes from outside. The audit record of a sign-in is not modelled, and
the pair of tokens stands for the redirect that carries them.
-/
import Genzh.Api.Endpoints
import Genzh.Auth.SignIns

namespace Genzh.Api.OAuth

open Genzh.Lib Genzh.Domain Genzh.Infrastructure Genzh.Auth

/-! ## Providers -/

/-- Every provider this API can sign somebody in with. -/
inductive Provider where
  | google
  | discord
  deriving DecidableEq, Repr

/-- What one provider needs from the configuration. -/
structure Credentials where
  clientId : String
  clientSecret : Option String
  redirectUri : String
  deriving DecidableEq, Repr

structure OAuthConfig where
  auth : AuthService
  frontendUrl : String
  googleClientId : Option String
  googleClientSecret : Option String
  googleRedirectUri : Option String
  discordClientId : Option String
  discordClientSecret : Option String
  discordRedirectUri : Option String

structure GoogleProfile where
  sub : String
  email : Option String
  emailVerified : Option Bool
  name : Option String
  picture : Option String
  deriving DecidableEq, Repr

structure DiscordProfile where
  id : String
  username : String
  globalName : Option String
  email : Option String
  verified : Option Bool
  avatar : Option String
  deriving DecidableEq, Repr

/-- What a provider answers to a code: a request fails, the profile is of neither shape, or it is of one. -/
inductive Answer where
  | failed
  | unreadable
  | google (profile : GoogleProfile)
  | discord (profile : DiscordProfile)
  deriving DecidableEq, Repr

/-- The characters `urlencoding::encode` leaves alone. -/
def isUnreserved (c : Char) : Bool := c.isAlphanum || c == '-' || c == '_' || c == '.' || c == '~'

/-- `%` and the two digits of a byte. -/
def percent (b : UInt8) : List Char :=
  let digit := fun n => "0123456789ABCDEF".toList.getD n '0'
  ['%', digit (b.toNat / 16), digit (b.toNat % 16)]

/-- `urlencoding::encode`. -/
def urlEncode (s : String) : String :=
  String.ofList (s.toList.flatMap fun c => if isUnreserved c then [c] else (String.utf8EncodeChar c).flatMap percent)

namespace Provider

def key : Provider → String
  | google => "google"
  | discord => "discord"

def displayName : Provider → String
  | google => "Google"
  | discord => "Discord"

/-- The redirect back to this API, when the deployment has not set one. -/
def defaultRedirectUri (cfg : OAuthConfig) (key : String) : String :=
  cfg.frontendUrl ++ "/api/v1/auth/oauth/" ++ key ++ "/callback"

/-- The provider's credentials, if the deployment has configured it. -/
def credentials (cfg : OAuthConfig) : Provider → Option Credentials
  | google => cfg.googleClientId.map fun clientId =>
      { clientId, clientSecret := cfg.googleClientSecret,
        redirectUri := cfg.googleRedirectUri.getD (defaultRedirectUri cfg "google") }
  | discord => cfg.discordClientId.map fun clientId =>
      { clientId, clientSecret := cfg.discordClientSecret,
        redirectUri := cfg.discordRedirectUri.getD (defaultRedirectUri cfg "discord") }

/-- The provider's credentials, or a message naming what is missing. -/
def requireCredentials (cfg : OAuthConfig) (p : Provider) : Except ApiError Credentials :=
  match p.credentials cfg with
  | some credentials => .ok credentials
  | none => .error (.badRequest (p.displayName ++ " OAuth is not configured"))

/-- Where to send the browser to ask the user for consent. -/
def authorizeUrl (credentials : Credentials) (csrfState : String) : Provider → String
  | google =>
    "https://accounts.google.com/o/oauth2/v2/auth?response_type=code&client_id=" ++ urlEncode credentials.clientId ++
      "&redirect_uri=" ++ urlEncode credentials.redirectUri ++ "&scope=openid%20email%20profile&state=" ++
      urlEncode csrfState ++ "&access_type=online"
  | discord =>
    "https://discord.com/oauth2/authorize?response_type=code&client_id=" ++ urlEncode credentials.clientId ++
      "&redirect_uri=" ++ urlEncode credentials.redirectUri ++ "&scope=identify%20email&state=" ++ urlEncode csrfState

/-- Turn the provider's profile into the shape the service takes. An address that is not verified is dropped. -/
def parseProfile : Provider → Answer → Except ApiError OAuthUserInput
  | google, .google profile =>
    .ok { provider := "google", providerUserId := profile.sub,
          email := if profile.emailVerified.getD false then profile.email else none,
          suggestedHandle := none, displayName := profile.name, avatarUrl := profile.picture }
  | discord, .discord profile =>
    .ok { provider := "discord", providerUserId := profile.id,
          email := if profile.verified.getD false then profile.email else none,
          suggestedHandle := some profile.username, displayName := profile.globalName,
          avatarUrl := profile.avatar.map fun hash =>
            "https://cdn.discordapp.com/avatars/" ++ profile.id ++ "/" ++ hash ++ ".png" }
  | p, _ => .error (.badRequest ("Could not read your " ++ p.displayName ++ " profile"))

end Provider

/-- Look a provider up by the key that appears in the URL. -/
def provider (key : String) : Option Provider := [Provider.google, Provider.discord].find? fun p => p.key = key

def providerOrError (key : String) : Except ApiError Provider :=
  match provider key with
  | some p => .ok p
  | none => .error (.badRequest ("Unsupported OAuth provider: " ++ key))

/-- Trade an authorization code for the user behind it. -/
def exchangeCode (cfg : OAuthConfig) (p : Provider) (trade : String → Answer) (code : String) :
    Except ApiError OAuthUserInput := do
  let credentials ← p.requireCredentials cfg
  match credentials.clientSecret with
  | none => .error (.badRequest (p.displayName ++ " OAuth secret is not configured"))
  | some _ =>
    match trade code with
    | .failed => .error (.badRequest (p.displayName ++ " authentication failed"))
    | answer => p.parseProfile answer

/-! ## The endpoints -/

/-- Query parameters passed back to the redirect callback. -/
structure CallbackQuery where
  code : Option String
  state : Option String
  error : Option String
  errorDescription : Option String
  deriving DecidableEq, Repr

inductive Response where
  | redirect (url : String)
  | signedIn (user : AuthenticatedUser) (tokens : TokenPair)
  deriving DecidableEq, Repr

/-- `GET /api/v1/auth/oauth/{provider}/authorize`, which draws the state. -/
def authorize (cfg : OAuthConfig) (key : String) (csrfState : Uuid) : Except ApiError Response := do
  let p ← providerOrError key
  let credentials ← p.requireCredentials cfg
  pure (.redirect (p.authorizeUrl credentials (String.ofList (Handle.uuidString csrfState))))

/-- `GET /api/v1/auth/oauth/{provider}/callback`. -/
def callback (cfg : OAuthConfig) (key : String) (query : CallbackQuery) (trade : String → Answer) (draw : OAuthDraw) :
    Prog Db ApiError Response := do
  let p ← Prog.lift (providerOrError key)
  match query.error with
  | some err => pure (.redirect (cfg.frontendUrl ++ "/login?error=" ++ urlEncode (query.errorDescription.getD err)))
  | none =>
    match query.code with
    | none => Prog.fail (.badRequest "Missing authorization code")
    | some code => do
      let userInfo ← Prog.lift (exchangeCode cfg p trade code)
      let (user, tokens) ← Prog.mapError ApiError.auth (loginOrRegister cfg.auth userInfo draw)
      pure (.signedIn user tokens)

/-! ## Flows -/

/-- The database, the states that were issued and to whom, and those a callback has brought back. -/
structure Flows (B : Type) where
  db : Db
  issued : List (B × String)
  used : List String

/-- A request of a browser, or something else that is written to the database. A callback is in whatever browser it
is made in, whoever wrote its link. -/
inductive Event (B : Type) where
  | authorize (b : B) (key : String) (csrfState : Uuid)
  | callback (b : B) (key : String) (query : CallbackQuery) (trade : String → Answer) (draw : OAuthDraw)
  | elsewhere (written : Db)

/-- Before any request. -/
def begin {B : Type} (db : Db) : Flows B := { db, issued := [], used := [] }

section Flow

variable {B : Type} [DecidableEq B] (cfg : OAuthConfig)

def step (f : Flows B) : Event B → Flows B
  | .authorize b key csrfState =>
    match authorize cfg key csrfState with
    | .ok _ => { f with issued := (b, String.ofList (Handle.uuidString csrfState)) :: f.issued }
    | .error _ => f
  | .callback _ key query trade draw =>
    { f with
      db := ((callback cfg key query trade draw).exec f.db).2
      used := query.state.toList ++ f.used }
  | .elsewhere written => { f with db := written }

/-- A session is there that was not. -/
def StartsSession (db db' : Db) : Prop := ∃ id, db.sessions.contains id = false ∧ db'.sessions.contains id = true

/-- Does the callback carry a state that was issued to its browser and that no callback has carried before? -/
def carriesState (f : Flows B) (b : B) (query : CallbackQuery) : Bool :=
  query.state.any fun s => (b, s) ∈ f.issued && s ∉ f.used

/-- A callback that starts a session carries a state of its browser's that is not used yet. -/
def SessionBound (f : Flows B) : Event B → Prop
  | .callback b key query trade draw =>
    StartsSession f.db (step cfg f (.callback b key query trade draw)).db → carriesState f b query = true
  | _ => True

/-- Does the callback report no error and carry a code that its provider trades for a profile? -/
def trades (key : String) (query : CallbackQuery) (trade : String → Answer) : Bool :=
  query.error.isNone && query.code.any fun code => (provider key).any fun p => (exchangeCode cfg p trade code).isOk

/-- A callback whose code is traded carries a state of its browser's that is not used yet. -/
def bringsBack (f : Flows B) : Event B → Bool
  | .callback b key query trade _ => !trades cfg key query trade || carriesState f b query
  | _ => true

/-! ## The state on the way -/

theorem urlEncode_of_unreserved {s : String} (h : s.toList.all isUnreserved = true) : urlEncode s = s := by
  unfold urlEncode
  have hid : ∀ cs : List Char, cs.all isUnreserved = true →
      (cs.flatMap fun c => if isUnreserved c then [c] else (String.utf8EncodeChar c).flatMap percent) = cs := by
    intro cs hcs
    induction cs with
    | nil => rfl
    | cons c cs ih =>
      rw [List.all_cons, Bool.and_eq_true] at hcs
      rw [List.flatMap_cons, if_pos hcs.1, ih hcs.2]
      rfl
  rw [hid s.toList h, String.ofList_toList]

theorem isUnreserved_uuidString (u : Uuid) : (Handle.uuidString u).all isUnreserved = true := by
  have hdigit : ∀ n, isUnreserved (Handle.hexDigit n) = true := by
    intro n
    unfold Handle.hexDigit
    rw [List.getD_eq_getElem?_getD]
    rcases hn : ("0123456789abcdef".toList)[n]? with _ | c
    · decide
    · have hall : "0123456789abcdef".toList.all isUnreserved = true := by decide
      exact List.all_eq_true.1 hall c (List.mem_of_getElem? hn)
  have hdigits : ∀ c ∈ (List.range 32).map fun i => Handle.hexDigit (u.toNat / 16 ^ (31 - i) % 16), isUnreserved c = true := by
    intro c hc
    obtain ⟨i, -, rfl⟩ := List.mem_map.1 hc
    exact hdigit _
  have hdash : isUnreserved '-' = true := by decide
  rw [List.all_eq_true]
  intro c hc
  unfold Handle.uuidString at hc
  simp only [List.mem_append, List.mem_cons] at hc
  rcases hc with (((hc | rfl | hc) | rfl | hc) | rfl | hc) | rfl | hc
  all_goals first
    | exact hdash
    | exact hdigits c (List.mem_of_mem_drop (List.mem_of_mem_take hc))
    | exact hdigits c (List.mem_of_mem_take hc)
    | exact hdigits c (List.mem_of_mem_drop hc)

/-- The URL a browser is sent to carries the state that is recorded for it. -/
theorem authorizeUrl_carries (p : Provider) (credentials : Credentials) (csrfState : Uuid) :
    ∃ before after, p.authorizeUrl credentials (String.ofList (Handle.uuidString csrfState)) =
      before ++ String.ofList (Handle.uuidString csrfState) ++ after := by
  have hstate : urlEncode (String.ofList (Handle.uuidString csrfState)) = String.ofList (Handle.uuidString csrfState) := by
    refine urlEncode_of_unreserved ?_
    rw [String.toList_ofList]
    exact isUnreserved_uuidString csrfState
  unfold Provider.authorizeUrl
  rw [hstate]
  cases p with
  | google => exact ⟨_, "&access_type=online", rfl⟩
  | discord => exact ⟨_, "", String.append_empty.symm⟩

/-! ## Who starts a session -/

/-- The same event, by a browser that brings back nothing of its own. -/
def Event.forged (b : B) : Event B → Event B
  | .callback _ key query trade draw => .callback b key { query with state := none } trade draw
  | e => e

omit [DecidableEq B] in
/-- What the requests of a run come to does not depend on the states, nor on the browsers they are brought back by. -/
theorem db_run_forged (b : B) (es : List (Event B)) {f f' : Flows B} (h : f'.db = f.db) :
    (run (step cfg) f' (es.map (Event.forged b))).db = (run (step cfg) f es).db := by
  induction es generalizing f f' with
  | nil => exact h
  | cons e es ih =>
    rw [List.map_cons, run_cons, run_cons]
    apply ih
    cases e with
    | authorize b' key csrfState =>
      simp only [Event.forged, step]
      cases authorize cfg key csrfState <;> exact h
    | callback b' key query trade draw =>
      simp only [Event.forged, step]
      rw [h]
      rfl
    | elsewhere written => rfl

/-- A callback whose code is not traded writes nothing. -/
theorem callback_unchanged {key : String} {query : CallbackQuery} {trade : String → Answer}
    (h : trades cfg key query trade = false) (draw : OAuthDraw) (db : Db) :
    ((callback cfg key query trade draw).exec db).2 = db := by
  unfold callback providerOrError
  rw [Prog.exec_lift_bind]
  rcases hp : provider key with _ | p
  · rfl
  · rcases he : query.error with _ | err
    · rcases hc : query.code with _ | code
      · rfl
      · simp only
        rw [Prog.exec_lift_bind]
        rcases hx : exchangeCode cfg p trade code with e | userInfo
        · rfl
        · -- this is the callback that trades its code
          unfold trades at h
          rw [he, hc, hp] at h
          simp only [Option.isNone_none, Option.any_some, Bool.true_and, hx] at h
          cases h
    · rfl

theorem sessionBound_of_bringsBack {f : Flows B} {e : Event B} (h : bringsBack cfg f e = true) : SessionBound cfg f e := by
  cases e with
  | authorize | elsewhere => trivial
  | callback b key query trade draw =>
    rintro ⟨id, hold, hnew⟩
    rcases ht : trades cfg key query trade
    · -- nothing is written, so no session is new
      have hsame : (step cfg f (.callback b key query trade draw)).db = f.db := callback_unchanged cfg ht draw f.db
      rw [hsame, hold] at hnew
      cases hnew
    · simpa [bringsBack, ht] using h

/-- In every run of the two endpoints, whatever else is written to the database meanwhile: where every callback whose
code is traded brings back a state that was issued to its browser and not used before, only such callbacks
start a session. -/
theorem session_bound (db : Db) (es : List (Event B))
    (h : Along (step cfg) (fun f e => bringsBack cfg f e = true) (begin db) es) :
    Along (step cfg) (SessionBound cfg) (begin db) es :=
  h.mono fun _ _ hb => sessionBound_of_bringsBack cfg hb

end Flow

/-! ### A callback somebody else has written -/

inductive Browser where
  | victim
  | attacker
  deriving DecidableEq, Repr

/-- A deployment with Google. -/
def configured : OAuthConfig where
  auth := SignIn.asciiAuth
  frontendUrl := "https://genzh.test"
  googleClientId := some "genzh"
  googleClientSecret := some "secret"
  googleRedirectUri := none
  discordClientId := none
  discordClientSecret := none
  discordRedirectUri := none

/-- The provider trades one code for a profile. -/
def tradeFor (code : String) (profile : GoogleProfile) (presented : String) : Answer :=
  if presented = code then .google profile else .failed

def malloryAtGoogle : GoogleProfile where
  sub := "66"
  email := none
  emailVerified := none
  name := none
  picture := none

def returnDraw : OAuthDraw where
  userId := ⟨6⟩
  session := { sessionId := ⟨20⟩, refreshToken := "m", jti := 4 }
  suffixes := []
  handle := 9

def comesBack (state : Option String) : CallbackQuery := { code := some "code", state, error := none, errorDescription := none }

/-- A browser that was sent to the provider comes back with its state. -/
theorem session_bound_in_flow :
    Along (step configured) (SessionBound configured) (begin SignIn.twoAccounts)
      [.authorize Browser.attacker "google" 7,
        .callback Browser.attacker "google" (comesBack (some "00000000-0000-0000-0000-000000000007"))
          (tradeFor "code" malloryAtGoogle) returnDraw] :=
  session_bound configured SignIn.twoAccounts _ (by decide +kernel)

/-- The victim's browser is made to open a callback with the attacker's code and no state: it gets a session. -/
theorem session_unbound :
    ¬ Along (step configured) (SessionBound configured) (begin SignIn.twoAccounts)
      [.callback Browser.victim "google" (comesBack none) (tradeFor "code" malloryAtGoogle) returnDraw] := by
  intro h
  have hstarts : StartsSession SignIn.twoAccounts
      (step configured (begin SignIn.twoAccounts)
        (.callback Browser.victim "google" (comesBack none) (tradeFor "code" malloryAtGoogle) returnDraw)).db :=
    ⟨⟨20⟩, by decide +kernel, by decide +kernel⟩
  exact absurd (h.1 hstarts) (by decide +kernel)

end Genzh.Api.OAuth
