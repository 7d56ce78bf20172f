/-
Sign-ins that provision an account for an identity whose provider gives no address. The account gets a
placeholder for its address and a handle that was free when it was chosen, and is inserted in a statement of
its own. Both names live in columns anybody can write to: somebody may register the placeholder, or take
the handle in between. Where nobody does, and the handle drawn when the search gives up is free, no such
sign-in fails with a conflict on either.

Whatever writes to the names of accounts runs beside the sign-ins: registrations and the renaming of an
account by staff. Everything else writes what it likes, but for these names and the linked identities.
-/
import Genzh.Auth.Linking
import Genzh.Auth.Entry
import Genzh.Admin.Staff

namespace Genzh.Auth.SignIn

open Genzh.Lib Genzh.Domain Genzh.Infrastructure

/-- What else goes on. -/
inductive Elsewhere where
  | register (input : RegisterInput) (draw : SignUpDraw)
  | rename (target : UserId) (newHandle newDisplayName : Option String)
  | others (written : Db)

/-- The other columns of an account, as they are written. -/
def otherColumns (written : Db) (u : User) : User :=
  { (written.users.find u.id).getD u with id := u.id, handle := u.handle, email := u.email }

theorem key_otherColumns (written : Db) (u : User) : key (otherColumns written u) = key u := rfl

section System

variable (auth : AuthService)

def elsewhereOn : Elsewhere → Db → Db
  | .register input draw, db => ((register auth input draw).exec db).2
  | .rename target newHandle newDisplayName, db =>
    ((Admin.updateUserProfile auth.toLowercase target newHandle newDisplayName).exec db).2
  | .others written, db =>
    { written with
      users := db.users.updateWhere (fun _ => true) (otherColumns written) (key_otherColumns written)
      oauthAccounts := db.oauthAccounts }

variable {I : Type} [DecidableEq I] (jobs : I → Job)

/-- One event of the sign-ins among everything that writes the names of accounts. -/
def stepAmong : SignIns I → Event I Elsewhere → SignIns I :=
  System.step (fun i => advance auth (jobs i)) (elsewhereOn auth)

/-- The address the account of a sign-in gets. -/
def Job.address (job : Job) : String := provisionedEmail auth.toLowercase job.input

/-- Does the sign-in come without a usable address? -/
def Job.bare (job : Job) : Bool := (usableEmail auth.toLowercase job.input).isNone

/-- When a sign-in without an address inserts its account, the placeholder and the handle are free: it does not fail
with a conflict on either, and the account is none of those that are there. -/
def ProvisionsFreely (σ : SignIns I) : Event I Elsewhere → Prop
  | .turn i => ∀ handle, (jobs i).bare auth = true → σ.calls i = .chosen handle →
      (emailTaken σ.store (placeholder (jobs i).input.provider (jobs i).input.providerUserId) = false ∧
        handleTaken σ.store handle = false) ∧
      (∀ isNew e, (stepAmong auth jobs σ (.turn i)).calls i = .finished isNew (.error e) →
        e ≠ .alreadyRegistered "handle" ∧ e ≠ .alreadyRegistered "email") ∧
      ∀ u, (stepAmong auth jobs σ (.turn i)).calls i = .created u → ∀ row ∈ σ.store.users.rows,
        row.id ≠ u.user.id ∧ row.handle ≠ u.user.handle ∧ row.email ≠ u.user.email
  | .outside _ => True

/-- Is the sign-in past its lookups of an account, and before the insertion of one? -/
def inSearch : Call → Bool
  | .searching _ | .chosen _ => true
  | _ => false

/-- May an account be inserted under the names without getting in the way of the sign-in? The handle is not the one
it has chosen; and the address is not its placeholder, unless the identity is linked and the sign-in has not
looked that up yet, or is past it. -/
def Job.sparedBy (job : Job) (c : Call) (handle email : String) (linked : Bool) : Bool :=
  c ≠ .chosen handle && (email ≠ job.address auth || (!inSearch c && linked))

/-- Does the database take an account under the names? -/
def namesFree (db : Db) (id : UserId) (handle email : String) : Bool :=
  !db.users.contains id && !handleTaken db handle && !emailTaken db email

/-- Does the event leave the names to the sign-in `j` that it counts on? -/
def spares (σ : SignIns I) (j : I) : Event I Elsewhere → Bool
  | .turn i =>
    match σ.calls i with
    | .searching n =>
      -- a random handle is taken as it comes
      i ≠ j || (findByIdentifier σ.store ((jobs i).candidate auth n)).isNone || n + 1 < handleAttempts ||
        !handleTaken σ.store (Handle.random (jobs i).draw.handle)
    | .chosen handle =>
      i = j || !namesFree σ.store (jobs i).draw.userId handle ((jobs i).address auth) ||
        (jobs j).sparedBy auth (σ.calls j) handle ((jobs i).address auth)
          ((jobs i).identity = (jobs j).identity || σ.store.oauthAccounts.contains (jobs j).identity)
    | _ => true
  | .outside (.register input draw) =>
    match candidate auth input draw with
    | .ok (user, _) =>
      !namesFree σ.store user.id user.handle user.email ||
        (jobs j).sparedBy auth (σ.calls j) user.handle user.email (σ.store.oauthAccounts.contains (jobs j).identity)
    | .error _ => true
  | .outside (.rename target newHandle _) =>
    newHandle.all fun handle =>
      !σ.store.users.contains target || σ.calls j ≠ .chosen (auth.toLowercase (trim handle))
  | .outside (.others _) => true

end System

/-! ## Names -/

section Names

variable {auth : AuthService} {db db' : Db}

theorem handleTaken_iff {handle : String} : handleTaken db handle = true ↔ ∃ u ∈ db.users.rows, u.handle = handle := by
  simp [handleTaken]

theorem emailTaken_iff {email : String} : emailTaken db email = true ↔ ∃ u ∈ db.users.rows, u.email = email := by
  simp [emailTaken]

/-- The names in the database are those that were there, and the handle and the address of one account. -/
structure NamesFrom (db : Db) (handle email : Option String) (db' : Db) : Prop where
  handles : ∀ h, handleTaken db' h = true → handleTaken db h = true ∨ handle = some h
  emails : ∀ e, emailTaken db' e = true → emailTaken db e = true ∨ email = some e

theorem namesFrom_of_users (hu : db'.users = db.users) : NamesFrom db none none db' where
  handles h hh := .inl (by rw [handleTaken_iff, ← hu, ← handleTaken_iff]; exact hh)
  emails e he := .inl (by rw [emailTaken_iff, ← hu, ← emailTaken_iff]; exact he)

theorem namesFrom_insert (user : User) (hu : db'.users = db.users.insert user) :
    NamesFrom db (some user.handle) (some user.email) db' where
  handles h hh := by
    obtain ⟨u, hmem, rfl⟩ := handleTaken_iff.1 hh
    rw [hu, Table.mem_insert] at hmem
    rcases hmem with hmem | ⟨rfl, -⟩
    · exact .inl (handleTaken_iff.2 ⟨u, hmem, rfl⟩)
    · exact .inr rfl
  emails e he := by
    obtain ⟨u, hmem, rfl⟩ := emailTaken_iff.1 he
    rw [hu, Table.mem_insert] at hmem
    rcases hmem with hmem | ⟨rfl, -⟩
    · exact .inl (emailTaken_iff.2 ⟨u, hmem, rfl⟩)
    · exact .inr rfl

theorem mem_renamed {target : UserId} {handle : String} {u' : User} (h : u' ∈ (Admin.renamed target handle db).users.rows) :
    ∃ u ∈ db.users.rows, (u'.handle = u.handle ∨ u'.handle = handle) ∧ u'.email = u.email := by
  rcases Admin.mem_renamed.1 h with ⟨u, hu, -, rfl⟩ | ⟨hu, -⟩
  · exact ⟨u, hu, .inr rfl, rfl⟩
  · exact ⟨u', hu, .inl rfl, rfl⟩

theorem namesFrom_renamed (target : UserId) (handle : String) (db : Db) :
    NamesFrom db (some handle) none (Admin.renamed target handle db) where
  handles h hh := by
    obtain ⟨u', hmem, rfl⟩ := handleTaken_iff.1 hh
    obtain ⟨u, hu, hold | hnew, -⟩ := mem_renamed hmem
    · exact .inl (handleTaken_iff.2 ⟨u, hu, hold.symm⟩)
    · exact .inr (congrArg some hnew.symm)
  emails e he := by
    obtain ⟨u', hmem, rfl⟩ := emailTaken_iff.1 he
    obtain ⟨u, hu, -, hemail⟩ := mem_renamed hmem
    exact .inl (emailTaken_iff.2 ⟨u, hu, hemail.symm⟩)

theorem mem_others {written : Db} {u' : User} (h : u' ∈ (elsewhereOn auth (.others written) db).users.rows) :
    ∃ u ∈ db.users.rows, u'.handle = u.handle ∧ u'.email = u.email := by
  have h : u' ∈ (db.users.updateWhere (fun _ => true) (otherColumns written) (key_otherColumns written)).rows := h
  rw [Table.mem_updateWhere] at h
  obtain ⟨u, hu, rfl⟩ := h
  exact ⟨u, hu, rfl, rfl⟩

theorem namesFrom_others (written db : Db) : NamesFrom db none none (elsewhereOn auth (.others written) db) where
  handles h hh := by
    obtain ⟨u', hmem, rfl⟩ := handleTaken_iff.1 hh
    obtain ⟨u, hu, hhandle, -⟩ := mem_others hmem
    exact .inl (handleTaken_iff.2 ⟨u, hu, hhandle.symm⟩)
  emails e he := by
    obtain ⟨u', hmem, rfl⟩ := emailTaken_iff.1 he
    obtain ⟨u, hu, -, hemail⟩ := mem_others hmem
    exact .inl (emailTaken_iff.2 ⟨u, hu, hemail.symm⟩)

end Names

/-! ## What a sign-in counts on -/

section CountsOn

variable {auth : AuthService} {job : Job} {db db' : Db} {c c' : Call}

/-- What a sign-in without an address counts on: until it has looked the link up, whoever has its placeholder is the
account its identity is linked to; from then on, nobody has, and nobody has the handle it has chosen. -/
def CountsOn (auth : AuthService) (job : Job) (c : Call) (db : Db) : Prop :=
  job.bare auth = true →
    match c with
    | .begun => emailTaken db (job.address auth) = true → db.oauthAccounts.contains job.identity = true
    | .unlinked _ => False
    | .searching _ => emailTaken db (job.address auth) = false
    | .chosen handle => emailTaken db (job.address auth) = false ∧ handleTaken db handle = false
    | _ => True

/-- A sign-in that is spared keeps what it counts on. -/
theorem CountsOn.spared (h : CountsOn auth job c db) {handle email : Option String} (hn : NamesFrom db handle email db')
    (hlinks : db.oauthAccounts.contains job.identity = true → db'.oauthAccounts.contains job.identity = true)
    (hhandle : ∀ chosen, c = .chosen chosen → handle ≠ some chosen)
    (hemail : email = some (job.address auth) → inSearch c = false ∧ db'.oauthAccounts.contains job.identity = true) :
    CountsOn auth job c db' := by
  intro hb
  have hc := h hb
  have hfree : inSearch c = true → emailTaken db (job.address auth) = false → emailTaken db' (job.address auth) = false := by
    intro hin he
    rw [Bool.eq_false_iff]
    intro he'
    rcases hn.emails _ he' with hold | hnew
    · rw [he] at hold
      cases hold
    · rw [(hemail hnew).1] at hin
      cases hin
  cases c with
  | begun =>
    intro he'
    rcases hn.emails _ he' with hold | hnew
    · exact hlinks (hc hold)
    · exact (hemail hnew).2
  | unlinked email => exact hc
  | searching n => exact hfree rfl hc
  | chosen chosen =>
    refine ⟨hfree rfl hc.1, ?_⟩
    rw [Bool.eq_false_iff]
    intro hh'
    rcases hn.handles _ hh' with hold | hnew
    · rw [hc.2] at hold
      cases hold
    · exact hhandle chosen rfl hnew
  | _ => trivial

theorem handleTaken_of_free {handle : String} (h : findByIdentifier db handle = none) : handleTaken db handle = false := by
  rw [Bool.eq_false_iff]
  intro hh
  obtain ⟨u, hu, rfl⟩ := handleTaken_iff.1 hh
  have := List.find?_eq_none.1 h u hu
  simp at this

/-- Its own statements keep what a sign-in counts on, where a random handle is free. -/
theorem Statement.countsOn (h : Statement auth job db c c' db') (hc : CountsOn auth job c db)
    (hrandom : ∀ n, c = .searching n → findByIdentifier db (job.candidate auth n) ≠ none → ¬ n + 1 < handleAttempts →
      handleTaken db (Handle.random job.draw.handle) = false) : CountsOn auth job c' db' := by
  intro hb
  have hc := hc hb
  cases h with
  | noLink _ hemail =>
    unfold Job.bare at hb
    rw [hemail] at hb
    cases hb
  | noAddress hfind =>
    change emailTaken db (job.address auth) = false
    rw [Bool.eq_false_iff]
    intro he
    have hlink := hc he
    rw [Table.contains_eq_false.2 hfind] at hlink
    cases hlink
  | noMatch => exact hc.elim
  | take hfree => exact ⟨hc, handleTaken_of_free hfree⟩
  | next => exact hc
  | @giveUp n htaken hn => exact ⟨hc, hrandom n rfl htaken hn⟩
  | _ => trivial

/-- The names a statement leaves: none are new, unless it inserts the account. -/
theorem Statement.namesFrom (h : Statement auth job db c c' db') :
    NamesFrom db none none db' ∨
    ∃ handle, c = .chosen handle ∧ namesFree db job.draw.userId handle (job.address auth) = true ∧
      NamesFrom db (some handle) (some (job.address auth)) db' ∧ db'.oauthAccounts.contains job.identity = true := by
  cases h with
  | @create handle hfree hid hhandle hemail =>
    right
    refine ⟨handle, rfl, ?_, namesFrom_insert (provisioned auth.toLowercase job.input job.draw handle) rfl, ?_⟩
    · unfold namesFree
      rw [hid, hhandle, show emailTaken db (job.address auth) = false from hemail]
      rfl
    · rw [contains_iff_owner, owner_inserted, if_pos rfl]
      rcases owner db job.identity with _ | u
      · exact ⟨_, rfl⟩
      · exact ⟨u, rfl⟩
  | link | session => exact .inl (namesFrom_of_users rfl)
  | _ => exact .inl (namesFrom_of_users rfl)

theorem Statement.links_last (h : Statement auth job db c c' db') {identity : String × String}
    (hl : db.oauthAccounts.contains identity = true) : db'.oauthAccounts.contains identity = true := by
  obtain ⟨u, hu⟩ := contains_iff_owner.1 hl
  exact contains_iff_owner.2 ⟨u, h.owner_lasts hu⟩

/-- The names everything else leaves. -/
theorem elsewhereOn_namesFrom (auth : AuthService) (e : Elsewhere) (db : Db) :
    (elsewhereOn auth e db).oauthAccounts = db.oauthAccounts ∧
      (NamesFrom db none none (elsewhereOn auth e db) ∨
      (∃ input draw user name, e = .register input draw ∧ candidate auth input draw = .ok (user, name) ∧
        namesFree db user.id user.handle user.email = true ∧
        NamesFrom db (some user.handle) (some user.email) (elsewhereOn auth e db)) ∨
      ∃ target handle name, e = .rename target (some handle) name ∧ db.users.contains target = true ∧
        NamesFrom db (some (auth.toLowercase (trim handle))) none (elsewhereOn auth e db)) := by
  cases e with
  | register input draw =>
    rcases register_cases auth input draw db with ⟨e, hx⟩ | ⟨user, name, hc, hid, hhandle, hemail, hk, -⟩
    · have hsame : elsewhereOn auth (.register input draw) db = db := congrArg Prod.snd hx
      rw [hsame]
      exact ⟨rfl, .inl (namesFrom_of_users rfl)⟩
    · refine ⟨hk.links, .inr (.inl ⟨input, draw, user, name, rfl, hc, ?_, namesFrom_insert user hk.users⟩)⟩
      unfold namesFree
      rw [hid, hhandle, hemail]
      rfl
  | rename target newHandle name =>
    rcases Admin.updateUserProfile_cases auth.toLowercase target newHandle name db with hsame | ⟨handle, rfl, ht, -, hr⟩
    · have hsame : elsewhereOn auth (.rename target newHandle name) db = db := hsame
      rw [hsame]
      exact ⟨rfl, .inl (namesFrom_of_users rfl)⟩
    · have hr : elsewhereOn auth (.rename target (some handle) name) db =
          Admin.renamed target (auth.toLowercase (trim handle)) db := hr
      rw [hr]
      exact ⟨rfl, .inr (.inr ⟨target, handle, name, rfl, ht, namesFrom_renamed _ _ _⟩)⟩
  | others written => exact ⟨rfl, .inl (namesFrom_others written db)⟩

end CountsOn

/-! ## Runs -/

section Runs

variable {I : Type} [DecidableEq I] {auth : AuthService} {jobs : I → Job} {σ : SignIns I}

/-- Every sign-in has what it counts on. -/
def AllCountOn (auth : AuthService) (jobs : I → Job) : SignIns I → Prop :=
  System.Outline (fun _ => True) (fun i => CountsOn auth (jobs i)) fun _ _ => False

theorem sparedBy_iff {job : Job} {c : Call} {handle email : String} {linked : Bool} :
    job.sparedBy auth c handle email linked = true ↔
      c ≠ .chosen handle ∧ (email = job.address auth → inSearch c = false ∧ linked = true) := by
  unfold Job.sparedBy
  by_cases he : email = job.address auth <;> simp [he]

theorem AllCountOn.step (h : AllCountOn auth jobs σ) {e : Event I Elsewhere}
    (hspares : ∀ j, (jobs j).bare auth = true → spares auth jobs σ j e = true) :
    AllCountOn auth jobs (stepAmong auth jobs σ e) := by
  cases e with
  | turn i =>
    have hs := advance_statement auth (jobs i) (σ.calls i) σ.store
    refine System.Outline.turn h trivial ?_ (fun j hji => ?_) fun hx => hx.elim
    · intro hb
      refine hs.countsOn (h.own i) (fun n hn htaken hlast => ?_) hb
      have hsp := hspares i hb
      simpa [spares, hn, htaken, hlast] using hsp
    · intro hb
      have hsp := hspares j hb
      rcases hs.namesFrom with hn | ⟨handle, hc, hfree, hn, hlinked⟩
      · exact (h.own j).spared hn hs.links_last (fun _ _ h => by cases h) (fun h => by cases h) hb
      · simp only [spares, hc, hfree, Bool.not_true, Bool.or_false, Bool.or_eq_true, decide_eq_true_eq,
          Ne.symm hji, false_or, sparedBy_iff] at hsp
        refine (h.own j).spared hn hs.links_last (fun chosen hj heq => ?_) (fun heq => ?_) hb
        · cases heq
          exact hsp.1 hj
        · obtain ⟨hsearch, hid | hl⟩ := hsp.2 (Option.some.inj heq)
          · rw [← hid]
            exact ⟨hsearch, hlinked⟩
          · exact ⟨hsearch, hs.links_last hl⟩
  | outside e =>
    refine h.elsewhere trivial fun j hb => ?_
    have hsp := hspares j hb
    obtain ⟨hlinks, hn | ⟨input, draw, user, name, rfl, hc, hfree, hn⟩ | ⟨target, handle, name, rfl, ht, hn⟩⟩ :=
      elsewhereOn_namesFrom auth e σ.store
    · exact (h.own j).spared hn (fun hl => by rw [hlinks]; exact hl) (fun _ _ h => by cases h) (fun h => by cases h) hb
    · simp only [spares, hc, hfree, Bool.not_true, Bool.false_or, sparedBy_iff] at hsp
      refine (h.own j).spared hn (fun hl => by rw [hlinks]; exact hl) (fun chosen hj heq => ?_) (fun heq => ?_) hb
      · cases heq
        exact hsp.1 hj
      · rw [hlinks]
        exact hsp.2 (Option.some.inj heq)
    · simp only [spares, ht, Option.all_some, Bool.not_true, Bool.false_or, decide_eq_true_eq] at hsp
      refine (h.own j).spared hn (fun hl => by rw [hlinks]; exact hl) (fun chosen hj heq => ?_) (fun heq => by cases heq) hb
      cases heq
      exact hsp hj

/-- A sign-in that has what it counts on provisions freely. -/
theorem CountsOn.provisionsFreely {i : I} (h : CountsOn auth (jobs i) (σ.calls i) σ.store) :
    ProvisionsFreely auth jobs σ (.turn i) := by
  intro handle hb hc
  have hself : (stepAmong auth jobs σ (.turn i)).calls i = (advance auth (jobs i) (σ.calls i) σ.store).1 :=
    System.calls_turn_self σ i
  have hs := advance_statement auth (jobs i) (σ.calls i) σ.store
  have hown := h hb
  rw [hc] at hown hs
  rw [hself, hc]
  generalize advance auth (jobs i) (.chosen handle) σ.store = result at hs ⊢
  obtain ⟨c', db'⟩ := result
  have haddress : (jobs i).address auth = placeholder (jobs i).input.provider (jobs i).input.providerUserId := by
    unfold Job.address provisionedEmail
    rw [Option.isNone_iff_eq_none.1 hb, Option.getD_none]
  obtain ⟨hemail, hhandle⟩ := hown
  refine ⟨⟨by rw [← haddress]; exact hemail, hhandle⟩, fun isNew e he => ?_, fun u hu row hrow => ?_⟩
  · have hfin : c' = .finished isNew (.error e) := he
    cases hs with
    | clash hh he' =>
      cases hfin
      exact ⟨fun h => absurd (hh h) (Bool.eq_false_iff.1 hhandle), fun h => absurd (he' h) (Bool.eq_false_iff.1 hemail)⟩
    | session hc' => rcases hc' with hc' | hc' <;> cases hc'
    | refuse hc' => exact absurd rfl (hc' handle)
    | create => cases hfin
  · have hcreated : c' = .created u := hu
    cases hs with
    | create _ hid hh he =>
      cases hcreated
      refine ⟨fun h => ?_, fun h => ?_, fun h => ?_⟩
      · exact absurd (Table.contains_iff.2 ⟨row, Table.find_eq_some.2 ⟨hrow, h⟩⟩) (Bool.eq_false_iff.1 hid)
      · exact absurd (handleTaken_iff.2 ⟨row, hrow, h⟩) (Bool.eq_false_iff.1 hh)
      · exact absurd (emailTaken_iff.2 ⟨row, hrow, h⟩) (Bool.eq_false_iff.1 he)
    | clash | session | refuse => cases hcreated

/-- From an empty database, over every schedule of any sign-ins, registrations and renamings: where nobody but its
own provisioning takes the placeholder of an identity, nobody takes a handle that a sign-in has chosen, and a
random handle is free when it is drawn, a sign-in without an address finds both its names free. -/
theorem provisions_freely (auth : AuthService) (jobs : I → Job) (now : Timestamp) (es : List (Event I Elsewhere))
    (hspares : Along (stepAmong auth jobs) (fun σ e => ∀ j, (jobs j).bare auth = true → spares auth jobs σ j e = true)
      (begin (.empty now)) es) :
    Along (stepAmong auth jobs) (ProvisionsFreely auth jobs) (begin (.empty now)) es := by
  have h0 : AllCountOn auth jobs (begin (.empty now)) := by
    refine ⟨trivial, fun i hb he => ?_, fun _ _ hx => hx.elim⟩
    cases he
  refine along_of_along (fun σ e h hc => ⟨h.step hc, ?_⟩) h0 hspares
  cases e with
  | turn i => exact (h.own i).provisionsFreely
  | outside e => trivial

end Runs

/-! ### A placeholder somebody has registered -/

/-- An identity whose provider gives no address. -/
def withheld (_ : Unit) : Job where
  input :=
    { provider := "google", providerUserId := "42", email := none, suggestedHandle := none, displayName := none,
      avatarUrl := none }
  draw := firstDraw

def registrationOf (handle email : String) : Elsewhere :=
  .register { handle, email, password := "battery staple", displayName := none }
    { userId := ⟨1⟩, salt := 7, session := { sessionId := ⟨12⟩, refreshToken := "c", jti := 3 } }

/-- Somebody signs up beside the sign-in, under names of their own. -/
theorem provisions_freely_beside :
    Along (stepAmong asciiAuth withheld) (ProvisionsFreely asciiAuth withheld) (begin (.empty 0))
      [.turn (), .turn (), .outside (registrationOf "ana" "ana@genzh.test"), .turn (), .turn ()] :=
  provisions_freely asciiAuth withheld 0 _ (by decide +kernel)

/-- Somebody has signed up with the placeholder as their address. -/
def afterSquatter : List (Event Unit Elsewhere) :=
  [.outside (registrationOf "mallory" "google_42@oauth.genzh.local"), .turn (), .turn ()]

/-- The sign-in of the identity, which is linked to no account, fails with a conflict on the address. -/
theorem provisioning_blocked :
    ¬ Along (stepAmong asciiAuth withheld) (ProvisionsFreely asciiAuth withheld) (begin (.empty 0))
        (afterSquatter ++ [.turn ()]) ∧
      (run (stepAmong asciiAuth withheld) (begin (.empty 0)) (afterSquatter ++ [.turn ()])).calls () =
        .finished false (.error (.alreadyRegistered "email")) := by
  have hfin : (run (stepAmong asciiAuth withheld) (begin (.empty 0)) (afterSquatter ++ [.turn ()])).calls () =
      .finished false (.error (.alreadyRegistered "email")) := by decide +kernel
  refine ⟨fun h => ?_, hfin⟩
  rw [along_append] at h
  rw [run_append] at hfin
  have hfree := h.2.1 "google_42" (by decide +kernel) (by decide +kernel)
  exact (hfree.2.1 false (.alreadyRegistered "email") hfin).2 rfl

end Genzh.Auth.SignIn
