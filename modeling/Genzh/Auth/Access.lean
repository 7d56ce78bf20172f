/-
Who has access to an account. A password account is made for whatever address it is asked for, and nobody has
to prove that the address is theirs; a sign-in through a provider proves it, and opens the account that has
the address. So whoever registers somebody else's address first shares the account its owner later signs
in to. Where nobody registers an address another party controls, an account found by its address is open
to the party that controls it and to nobody else.

The parties are bookkeeping beside the database: who has chosen the password of an account, and who has
been handed a session of it.
-/
import Genzh.Auth.Entry

namespace Genzh.Auth.Access

open Genzh.Lib Genzh.Domain Genzh.Infrastructure

/-- Who is who outside: who receives the mail of an address, and whose an identity at a provider is. -/
structure People (P : Type) where
  controls : String → Option P
  person : String × String → P
  /-- The domain of the placeholders is one nobody can receive mail at. -/
  unreachable : ∀ provider providerUserId, controls (placeholder provider providerUserId) = none

/-- The database, the accounts whose password a party has chosen, and those it has been handed a session of. -/
structure Town (P : Type) where
  db : Db
  passwords : List (P × UserId)
  sessions : List (P × UserId)

inductive Event (P : Type) where
  | register (p : P) (input : RegisterInput) (draw : SignUpDraw)
  | login (p : P) (input : LoginInput) (draw : Draw)
  | oauth (input : OAuthUserInput) (draw : OAuthDraw)
  | clock (now : Timestamp)

/-- A town where nobody has signed up. -/
def fresh {P : Type} (now : Timestamp) : Town P := { db := .empty now, passwords := [], sessions := [] }

section Step

variable {P : Type} [DecidableEq P] (auth : AuthService) (people : People P)

/-- The session an authentication hands to a party. -/
def Town.handed (t : Town P) (p : P) : Except AuthError (AuthenticatedUser × TokenPair) × Db → Town P
  | (.ok (u, _), db) => { t with db, sessions := (p, u.user.id) :: t.sessions }
  | (.error _, db) => { t with db }

/-- The party whose identity a sign-in shows. -/
def People.signer (input : OAuthUserInput) : P := people.person (input.provider, input.providerUserId)

/-- One event. An account that a registration inserts has the password of the party, also where the session
that follows fails. -/
def step (t : Town P) : Event P → Town P
  | .register p input draw =>
    let result := (Auth.register auth input draw).exec t.db
    let isNew := !t.db.users.contains draw.userId && result.2.users.contains draw.userId
    { t with passwords := if isNew then (p, draw.userId) :: t.passwords else t.passwords }.handed p result
  | .login p input draw => t.handed p ((Auth.login auth input draw).exec t.db)
  | .oauth input draw => t.handed (people.signer input) ((loginOrRegister auth input draw).exec t.db)
  | .clock now => { t with db := t.db.tick now }

/-- What the world outside keeps to: a password is presented by whoever has chosen it, a provider passes on only
an address of the person who signs in, and it knows people by identifiers without an `@`. -/
def outsideKeeps (t : Town P) : Event P → Bool
  | .login p input _ =>
    match credentials auth input t.db with
    | .ok user => (p, user.id) ∈ t.passwords
    | .error _ => true
  | .oauth input _ =>
    '@' ∉ input.providerUserId.toList &&
      (usableEmail auth.toLowercase input).all fun email => people.controls email = some (people.signer input)
  | .register .. | .clock _ => true

/-- A registration does not name an address that another party controls. -/
def namesOwn : Event P → Bool
  | .register p input _ =>
    match normalizeEmail auth.toLowercase input.email with
    | .ok email => (people.controls email).all fun q => q = p
    | .error _ => true
  | _ => true

/-- When the party that controls an address signs in and an account is opened that was found by the address, no
other party holds a password or a session of it. -/
def OpensAlone (t : Town P) : Event P → Prop
  | .oauth input draw => ∀ email user, linkedAccount input t.db = .ok none →
      usableEmail auth.toLowercase input = some email → findByIdentifier t.db email = some user →
      people.controls email = some (people.signer input) →
      ((loginOrRegister auth input draw).exec t.db).1.isOk = true →
      ∀ q, q ≠ people.signer input →
        (q, user.id) ∉ (step auth people t (.oauth input draw)).passwords ∧
          (q, user.id) ∉ (step auth people t (.oauth input draw)).sessions
  | _ => True

end Step

/-! ## Whose an account is -/

section Access

variable {P : Type} {auth : AuthService} {people : People P} {db db' : Db}

/-- No party but `p` controls the address of the account. -/
def OnlyFor (people : People P) (db : Db) (p : P) (a : UserId) : Prop :=
  ∃ user, db.users.find a = some user ∧ ∀ q, people.controls user.email = some q → q = p

/-- No handle is an address, and whoever holds a password, a session or a linked identity of an account is the only
party that may control its address. -/
structure Proper (people : People P) (t : Town P) : Prop where
  handles : ∀ u ∈ t.db.users.rows, '@' ∉ u.handle.toList
  passwords : ∀ p a, (p, a) ∈ t.passwords → OnlyFor people t.db p a
  sessions : ∀ p a, (p, a) ∈ t.sessions → OnlyFor people t.db p a
  links : ∀ identity link, t.db.oauthAccounts.find identity = some link →
    OnlyFor people t.db (people.person identity) link.userId

theorem OnlyFor.unique {p q : P} {a : UserId} (h : OnlyFor people db p a) {user : User} (hu : db.users.find a = some user)
    (hq : people.controls user.email = some q) : q = p := by
  obtain ⟨user', hu', hp⟩ := h
  rw [hu] at hu'
  cases hu'
  exact hp q hq

theorem OnlyFor.of_eq {p : P} {a : UserId} (h : OnlyFor people db p a) (hu : db'.users = db.users) :
    OnlyFor people db' p a := by
  obtain ⟨user, hfind, hp⟩ := h
  exact ⟨user, by rw [hu]; exact hfind, hp⟩

theorem OnlyFor.insert {p : P} {a : UserId} (h : OnlyFor people db p a) {user : User}
    (hu : db'.users = db.users.insert user) : OnlyFor people db' p a := by
  obtain ⟨row, hfind, hp⟩ := h
  refine ⟨row, ?_, hp⟩
  rw [hu, Table.find_insert, hfind, Option.some_or]

theorem find_inserted_user (user : User) (hid : db.users.contains user.id = false) (hu : db'.users = db.users.insert user) :
    db'.users.find user.id = some user := by
  have hkey : key user = user.id := rfl
  rw [hu, Table.find_insert, Table.contains_eq_false.1 hid, Option.none_or, if_pos hkey]

theorem findByIdentifier_some {identifier : String} {user : User} (h : findByIdentifier db identifier = some user) :
    db.users.find user.id = some user ∧ (user.handle = identifier ∨ user.email = identifier) := by
  refine ⟨Table.mem_iff_find.1 (List.mem_of_find?_eq_some h), ?_⟩
  simpa using List.find?_some h

/-- An account found by an address has it, where no handle is one. -/
theorem Proper.email_of_found {t : Town P} (h : Proper people t) {input : OAuthUserInput} {email : String} {user : User}
    (hemail : usableEmail auth.toLowercase input = some email) (hfind : findByIdentifier t.db email = some user) :
    user.email = email := by
  obtain ⟨hrow, hhandle | hemail'⟩ := findByIdentifier_some hfind
  · have hat : '@' ∈ email.toList := by
      obtain ⟨raw, -, hraw⟩ := Option.bind_eq_some_iff.1 hemail
      rcases hn : normalizeEmail auth.toLowercase raw with e | email'
      · rw [hn] at hraw
        cases hraw
      · rw [hn] at hraw
        cases hraw
        exact mem_of_isAddress (normalizeEmail_ok hn).2
    rw [← hhandle] at hat
    exact absurd hat (h.handles user (Table.find_eq_some.1 hrow).1)
  · exact hemail'

/-- Where the accounts stay, and every link that is new is of the only party that may control the address. -/
theorem Proper.relink {t : Town P} (h : Proper people t) (hu : db'.users = t.db.users)
    (hl : ∀ identity link, db'.oauthAccounts.find identity = some link →
      t.db.oauthAccounts.find identity = some link ∨ OnlyFor people db' (people.person identity) link.userId) :
    Proper people { t with db := db' } where
  handles u hmem := h.handles u (by rw [← hu]; exact hmem)
  passwords p a hp := (h.passwords p a hp).of_eq hu
  sessions p a hp := (h.sessions p a hp).of_eq hu
  links identity link hlink := by
    rcases hl identity link hlink with hold | honly
    · exact (h.links identity link hold).of_eq hu
    · exact honly

/-- Where the accounts and the links stay, and nobody is handed anything. -/
theorem Proper.keep {t : Town P} (h : Proper people t) (hk : AccountsKept t.db db') : Proper people { t with db := db' } :=
  h.relink hk.users fun _ _ hlink => .inl (by rw [← hk.links]; exact hlink)

/-- Where an account is inserted whose handle is no address. -/
theorem Proper.insert {t : Town P} (h : Proper people t) {user : User} (hu : db'.users = t.db.users.insert user)
    (hl : db'.oauthAccounts = t.db.oauthAccounts) (hhandle : '@' ∉ user.handle.toList) :
    Proper people { t with db := db' } where
  handles u hmem := by
    have hmem : u ∈ db'.users.rows := hmem
    rw [hu, Table.mem_insert] at hmem
    rcases hmem with hmem | ⟨rfl, -⟩
    · exact h.handles u hmem
    · exact hhandle
  passwords p a hp := (h.passwords p a hp).insert hu
  sessions p a hp := (h.sessions p a hp).insert hu
  links identity link hlink := (h.links identity link (by rw [← hl]; exact hlink)).insert hu

/-- Where a session is handed to the only party it may be. -/
theorem Proper.handed {t : Town P} {r : Except AuthError (AuthenticatedUser × TokenPair)}
    (h : Proper people { t with db := db' }) {p : P} {user : User} (hon : IsOn user r)
    (honly : OnlyFor people db' p user.id) : Proper people (t.handed p (r, db')) := by
  cases r with
  | error e => exact h
  | ok r =>
    obtain ⟨u, tokens⟩ := r
    have huser := hon u tokens rfl
    refine ⟨h.handles, h.passwords, fun q a hq => ?_, h.links⟩
    rcases List.mem_cons.1 hq with heq | hq
    · cases heq
      rw [huser]
      exact honly
    · exact h.sessions q a hq

end Access

/-! ## Runs -/

section Runs

variable {P : Type} [DecidableEq P] {auth : AuthService} {people : People P} {t : Town P}

theorem Proper.register (h : Proper people t) (p : P) (input : RegisterInput) (draw : SignUpDraw)
    (hown : namesOwn auth people (.register p input draw) = true) :
    Proper people (step auth people t (.register p input draw)) := by
  rcases register_cases auth input draw t.db with ⟨e, hx⟩ | ⟨user, name, hc, hid, -, -, hk, hon⟩
  · have hnot : (!t.db.users.contains draw.userId && t.db.users.contains draw.userId) = false := by
      cases t.db.users.contains draw.userId <;> rfl
    simp only [step, hx, hnot, Town.handed]
    exact h
  · obtain ⟨hdraw, hhandle, hemail⟩ := candidate_ok hc
    have hu : ((Auth.register auth input draw).exec t.db).2.users = t.db.users.insert user := hk.users
    have hfind := find_inserted_user user hid hu
    have honly : OnlyFor people ((Auth.register auth input draw).exec t.db).2 p user.id := by
      refine ⟨user, hfind, fun q hq => ?_⟩
      simpa [namesOwn, hemail, hq] using hown
    have hat : '@' ∉ user.handle.toList := fun hmem =>
      absurd (List.all_eq_true.1 (normalizeHandle_ok hhandle).2.2 _ hmem) (by decide)
    have hnew : (!t.db.users.contains draw.userId &&
        ((Auth.register auth input draw).exec t.db).2.users.contains draw.userId) = true := by
      rw [← hdraw, hid, Table.contains_iff.2 ⟨user, hfind⟩]
      rfl
    have hins := h.insert hu hk.links hat
    simp only [step, hnew, if_true]
    refine Proper.handed (t := { t with passwords := (p, draw.userId) :: t.passwords }) ?_ hon honly
    refine ⟨hins.handles, fun q a hq => ?_, hins.sessions, hins.links⟩
    rcases List.mem_cons.1 hq with heq | hq
    · cases heq
      rw [← hdraw]
      exact honly
    · exact hins.passwords q a hq

theorem Proper.login (h : Proper people t) (p : P) (input : LoginInput) (draw : Draw)
    (hkeeps : outsideKeeps auth people t (.login p input draw) = true) :
    Proper people (step auth people t (.login p input draw)) := by
  obtain ⟨hk, hon⟩ := login_cases auth input draw t.db
  have hkept := h.keep hk
  simp only [step]
  rcases hx : (Auth.login auth input draw).exec t.db with ⟨e | ⟨u, tokens⟩, db'⟩
  · rw [hx] at hkept
    exact hkept
  · rw [hx] at hkept hon hk
    have hcred := hon u tokens rfl
    have hpass : (p, u.user.id) ∈ t.passwords := by simpa [outsideKeeps, hcred] using hkeeps
    exact hkept.handed (fun v tokens' hv => by cases hv; rfl) ((h.passwords p _ hpass).of_eq hk.users)

/-- An account that is provisioned has an address of whoever signs in, or one that nobody receives mail at. -/
theorem controls_provisionedEmail {input : OAuthUserInput} {draw : OAuthDraw}
    (hkeeps : outsideKeeps auth people t (.oauth input draw) = true) {q : P}
    (hq : people.controls (provisionedEmail auth.toLowercase input) = some q) : q = people.signer input := by
  unfold provisionedEmail at hq
  rcases he : usableEmail auth.toLowercase input with _ | email
  · rw [he, Option.getD_none, people.unreachable] at hq
    cases hq
  · rw [he, Option.getD_some] at hq
    simp only [outsideKeeps, he, Option.all_some, Bool.and_eq_true, decide_eq_true_eq] at hkeeps
    rw [hkeeps.2] at hq
    exact (Option.some.inj hq).symm

theorem Proper.oauth (h : Proper people t) (input : OAuthUserInput) (draw : OAuthDraw)
    (hkeeps : outsideKeeps auth people t (.oauth input draw) = true) :
    Proper people (step auth people t (.oauth input draw)) := by
  have hentry := loginOrRegister_entry auth input draw t.db
  simp only [step]
  generalize (loginOrRegister auth input draw).exec t.db = result at hentry ⊢
  obtain ⟨r, db'⟩ := result
  cases hentry with
  | refused => exact h
  | @linked link user _ _ hlink huser hk hon =>
    refine (h.keep hk).handed hon ?_
    have hid : user.id = link.userId := Table.find_key huser
    rw [hid]
    exact (h.links _ link hlink).of_eq hk.users
  | @matched email user _ _ hlink hemail hfind hk hon =>
    -- the address is the signer's, and the account has it
    have honly : OnlyFor people db' (people.signer input) user.id := by
      refine ⟨user, by rw [hk.users]; exact (findByIdentifier_some hfind).1, fun q hq => ?_⟩
      rw [h.email_of_found hemail hfind] at hq
      simp only [outsideKeeps, hemail, Option.all_some, Bool.and_eq_true, decide_eq_true_eq] at hkeeps
      rw [hkeeps.2] at hq
      exact (Option.some.inj hq).symm
    refine Proper.handed (h.relink hk.users fun identity link hl => ?_) hon honly
    rw [hk.links] at hl
    unfold Auth.linked at hl
    rw [Table.find_upsert] at hl
    split at hl
    · rename_i hkey
      have hkey : (input.provider, input.providerUserId) = identity := hkey
      subst hkey
      rw [hlink] at hl
      cases hl
      exact .inr honly
    · exact .inl hl
  | @provisioned handle name _ _ hhandle hlink hid hk hon =>
    have hu : db'.users = t.db.users.insert (Auth.provisioned auth.toLowercase input draw handle) := hk.users
    have hfind := find_inserted_user (Auth.provisioned auth.toLowercase input draw handle) hid hu
    have hat : '@' ∉ handle.toList := by
      rw [hhandle]
      refine not_mem_uniqueHandle ?_ draw t.db
      simp only [outsideKeeps, Bool.and_eq_true, decide_eq_true_eq] at hkeeps
      exact hkeeps.1
    have honly : OnlyFor people db' (people.signer input) draw.userId :=
      ⟨_, hfind, fun q hq => controls_provisionedEmail hkeeps hq⟩
    have hins : Proper people { t with db := { t.db with users := db'.users } } := h.insert hu rfl hat
    have hlinked : Proper people { t with db := db' } := by
      refine hins.relink rfl fun identity link hl => ?_
      rw [hk.links] at hl
      refine (Option.or_eq_some_iff.1 ((Table.find_insert ..).symm.trans hl)).imp id fun hnew => ?_
      obtain ⟨-, hnew⟩ := hnew
      split at hnew
      · rename_i hkey
        have hkey : (input.provider, input.providerUserId) = identity := hkey
        subst hkey
        cases hnew
        exact honly
      · cases hnew
    exact hlinked.handed hon honly

theorem Proper.step (h : Proper people t) {e : Event P} (hkeeps : outsideKeeps auth people t e = true)
    (hown : namesOwn auth people e = true) : Proper people (step auth people t e) := by
  cases e with
  | register p input draw => exact h.register p input draw hown
  | login p input draw => exact h.login p input draw hkeeps
  | oauth input draw => exact h.oauth input draw hkeeps
  | clock now => exact h.keep ⟨rfl, rfl⟩

omit [DecidableEq P] in
/-- In a town that is proper after the sign-in, only the signer has access to the account of its address. -/
theorem Proper.opensAlone (h : Proper people t) {e : Event P} (hnext : Proper people (Access.step auth people t e)) :
    OpensAlone auth people t e := by
  cases e with
  | oauth input draw =>
    intro email user hlink hemail hfind hcontrols hok q hq
    have hentry := loginOrRegister_entry auth input draw t.db
    have hrow : (Access.step auth people t (.oauth input draw)).db.users.find user.id = some user := by
      have hdb : (Access.step auth people t (.oauth input draw)).db = ((loginOrRegister auth input draw).exec t.db).2 := by
        simp only [Access.step]
        rcases (loginOrRegister auth input draw).exec t.db with ⟨e | ⟨u, tokens⟩, db'⟩ <;> rfl
      have hold := (findByIdentifier_some hfind).1
      rw [hdb]
      generalize (loginOrRegister auth input draw).exec t.db = result at hentry
      obtain ⟨r, db'⟩ := result
      cases hentry with
      | refused => exact hold
      | linked _ _ hk => rw [hk.users]; exact hold
      | matched _ _ _ hk => rw [hk.users]; exact hold
      | provisioned _ _ _ hk =>
        rw [hk.users]
        exact (Table.find_insert ..).trans (by rw [hold, Option.some_or])
    rw [← h.email_of_found hemail hfind] at hcontrols
    constructor
    · intro hp
      exact hq ((hnext.passwords q _ hp).unique hrow hcontrols).symm
    · intro hs
      exact hq ((hnext.sessions q _ hs).unique hrow hcontrols).symm
  | _ => trivial

/-- In every run from a town where nobody has signed up: where no registration names an address that another party
controls, an account that is opened because it has the address of whoever signs in is open to nobody else. -/
theorem opens_alone (auth : AuthService) (people : People P) (now : Timestamp) (es : List (Event P))
    (hkeeps : Along (step auth people) (fun t e => outsideKeeps auth people t e = true) (fresh now) es)
    (hown : Along (step auth people) (fun _ e => namesOwn auth people e = true) (fresh now) es) :
    Along (step auth people) (OpensAlone auth people) (fresh now) es := by
  have h0 : Proper people (fresh now) := by
    refine ⟨fun u hu => ?_, fun p a hp => ?_, fun p a hp => ?_, fun identity link hl => ?_⟩
    · cases hu
    · cases hp
    · cases hp
    · cases hl
  refine along_of_along (fun t e h hc => ?_) h0 (along_and.2 ⟨hkeeps, hown⟩)
  have hnext := h.step hc.1 hc.2
  exact ⟨hnext, h.opensAlone hnext⟩

end Runs

/-! ### Somebody who is early -/

inductive Person where
  | ana
  | mallory
  deriving DecidableEq, Repr

/-- Each has an address, and the only identity at a provider is ana's. -/
def village : People Person where
  controls address :=
    if address = "ana@genzh.test" then some .ana
    else if address = "mallory@genzh.test" then some .mallory
    else none
  person := fun _ => .ana
  unreachable provider providerUserId := by
    have hlong : 18 < (placeholder provider providerUserId).length := by
      unfold placeholder
      simp only [String.length_append]
      have hdomain : "@oauth.genzh.local".length = 18 := by decide
      have hunder : "_".length = 1 := by decide
      omega
    have hana : placeholder provider providerUserId ≠ "ana@genzh.test" := by
      intro h
      rw [h] at hlong
      exact absurd hlong (by decide)
    have hmallory : placeholder provider providerUserId ≠ "mallory@genzh.test" := by
      intro h
      rw [h] at hlong
      exact absurd hlong (by decide)
    rw [if_neg hana, if_neg hmallory]

/-- A sign-up with a password. -/
def signUp (handle email : String) : RegisterInput := { handle, email, password := "battery staple", displayName := none }

/-- Ana at a provider that has verified the address. -/
def anaAtGoogle : OAuthUserInput where
  provider := "google"
  providerUserId := "42"
  email := some "ana@genzh.test"
  suggestedHandle := none
  displayName := some "Ana"
  avatarUrl := none

def signUpDraw : SignUpDraw := { userId := ⟨1⟩, salt := 7, session := { sessionId := ⟨10⟩, refreshToken := "a", jti := 1 } }

def anaDraw : OAuthDraw where
  userId := ⟨2⟩
  session := { sessionId := ⟨11⟩, refreshToken := "b", jti := 2 }
  suffixes := []
  handle := 5

/-- Everybody signs up with an address of their own. -/
theorem opens_alone_own_addresses :
    Along (step SignIn.asciiAuth village) (OpensAlone SignIn.asciiAuth village) (fresh 0)
      [.register .ana (signUp "ana" "ana@genzh.test") signUpDraw, .oauth anaAtGoogle anaDraw] :=
  opens_alone SignIn.asciiAuth village 0 _ (by decide +kernel) (by decide +kernel)

/-- Mallory signs up with the address of ana, who then signs in through the provider. -/
def squatted : List (Event Person) := [.register .mallory (signUp "mallory" "ana@genzh.test") signUpDraw, .oauth anaAtGoogle anaDraw]

def malloryDraw : Draw := { sessionId := ⟨12⟩, refreshToken := "c", jti := 3 }

/-- Ana is let into the account that mallory has the password and a session of; and mallory still logs in to it. -/
theorem opens_shared :
    Along (step SignIn.asciiAuth village) (fun t e => outsideKeeps SignIn.asciiAuth village t e = true) (fresh 0) squatted ∧
      ¬ Along (step SignIn.asciiAuth village) (OpensAlone SignIn.asciiAuth village) (fresh 0) squatted ∧
      (run (step SignIn.asciiAuth village) (fresh 0) (squatted ++
        [.login .mallory { identifier := "ana@genzh.test", password := "battery staple" } malloryDraw])).sessions =
          [(.mallory, ⟨1⟩), (.ana, ⟨1⟩), (.mallory, ⟨1⟩)] := by
  refine ⟨by decide +kernel, fun h => ?_, by decide +kernel⟩
  have hopens := h.2.1 "ana@genzh.test"
    { id := ⟨1⟩, handle := "mallory", email := "ana@genzh.test", isActive := true, passwordHash := some "argon2:battery staple" }
    (by decide +kernel) (by decide +kernel) (by decide +kernel) (by decide +kernel) (by decide +kernel) .mallory (by decide)
  exact absurd hopens (by decide +kernel)

end Genzh.Auth.Access
