/-
Communities under quarantine. The console sets one flag; what it promises, no invites and no discovery, is for others to
keep: for the statements that read and claim invites, for the queries of the recommenders, and for the lists that have been
computed before.

`quarantine_kept_iff` is about every interleaving of recommendations and invite calls, with everything else in between: the
promise is kept exactly as long as nobody from outside looks at or redeems a link that works, and no list is handed out that
is older than the quarantine of a community it names.
-/
import Genzh.Recommend.Service
import Genzh.Community.Redemption
import Genzh.Room.Request

namespace Genzh.Recommend

open Genzh.Lib Genzh.Domain Genzh.Infrastructure Genzh.Community

/-! ## The flag -/

/-- Quarantine a community, or lift a quarantine from it. -/
def setQuarantined (isQuarantined : Bool) (c : CommunityId) : SqlM Unit := do
  let found ← Prog.read fun db => db.communityExists c
  Prog.modify fun db =>
    { db with communities := db.communities.update c (fun row => { row with isQuarantined }) fun _ => rfl }
  Prog.ensure found (.notFound "community")

/-- Quarantine a community, disabling invites and public discoverability. -/
def quarantine (c : CommunityId) (reason : String) : SqlM Unit := do
  Prog.ensure (!(trim reason).isEmpty) (.invalid "reason" "A reason is required to quarantine a community")
  setQuarantined true c

/-- Lift a quarantine from a community. -/
def unquarantine (c : CommunityId) : SqlM Unit := setQuarantined false c

/-- What a link leads to, before joining. -/
structure InvitePreview where
  code : String
  communityId : CommunityId
  memberCount : Nat
  deriving DecidableEq, Repr

/-- What a link leads to, without joining it. Answers for anybody signed in. -/
def preview (db : Db) (code : String) : Except ServiceError InvitePreview := do
  let invite ← previewed db code
  match db.communities.find invite.communityId with
  | none => .error (.notFound "community")
  | some community =>
    .ok { code := invite.code, communityId := community.id
          memberCount := db.communityMembers.count fun m => m.communityId = invite.communityId }

def isMember (db : Db) (c : CommunityId) (u : UserId) : Bool := db.communityMembers.contains (c, u)

/-! ## Runs -/

/-- A call that takes several statements. -/
inductive Call where
  | recommending (ask : Ask) (progress : Progress)
  | inviting (call : InviteCall)

/-- What a call is made for. -/
inductive Request where
  | recommend (ask : Ask)
  | invite (req : InviteRequest)

/-- The call of a request, which has not begun. -/
def Request.call : Request → Call
  | .recommend ask => .recommending ask .begun
  | .invite req => .inviting req.call

/-- The next statement of a call. -/
def Call.advance (halving : ℚ → ℚ) : Call → RecommendState → Call × RecommendState
  | .recommending ask progress, s =>
    (.recommending ask (progress.advance halving ask s).1, (progress.advance halving ask s).2)
  | .inviting call, s => (.inviting (call.advance s.toDb).1, { s with toDb := (call.advance s.toDb).2 })

/-- What else happens. -/
inductive Operation where
  | service (req : Room.Request)
  /-- Whatever the social services write. -/
  | befriend (friendships : Table Friendship)
  | quarantine (c : CommunityId) (reason : String)
  | unquarantine (c : CommunityId)
  | preview (code : String) (u : UserId)
  | forget (viewer : UserId)
  | elapse (nanos : Nat)

def Operation.apply : Operation → RecommendState → RecommendState
  | .service req, s => { s with toDb := Room.step s.toDb req }
  | .befriend friendships, s => { s with friendships }
  | .quarantine c reason, s => { s with toDb := ((Recommend.quarantine c reason).exec s.toDb).2 }
  | .unquarantine c, s => { s with toDb := ((Recommend.unquarantine c).exec s.toDb).2 }
  | .preview _ _, s => s
  | .forget viewer, s => s.forget viewer
  | .elapse nanos, s => { s with instant := s.instant + nanos }

/-! ## When -/

/-- Which of the caches a list belongs to. -/
def Recommendations.surface : Recommendations → String
  | .rooms _ => "rooms"
  | .people _ => "people"
  | .communities _ => "communities"

section Watch

variable {I : Type} [DecidableEq I]

/-- A system, watched: the number of events so far, and at which of them a community came under quarantine, a list was
computed, and the lists that are remembered were computed. -/
structure Watched (I : Type) where
  system : System RecommendState I Call
  time : Nat
  quarantinedAt : CommunityId → Nat
  computedAt : I → Nat
  rememberedAt : String → CacheKey → Nat

namespace Watched

/-- Calls that have not begun. -/
def start (db : Db) (requests : I → Request) : Watched I where
  system := { store := .start db, calls := fun i => (requests i).call }
  time := 0
  quarantinedAt _ := 0
  computedAt _ := 0
  rememberedAt _ _ := 0

omit [DecidableEq I] in
def db (w : Watched I) : Db := w.system.store.toDb

/-- The list a call hands out at its next statement if it hands one out then, and when that list was computed. -/
def handed (w : Watched I) (i : I) : Option (Recommendations × Nat) :=
  match w.system.calls i with
  | .recommending ask .begun =>
    (w.system.store.remembered ask).map fun full => (full.take ask.limitOf, w.rememberedAt full.surface ask.key)
  | .recommending ask (.computed full) => some (full.take ask.limitOf, w.computedAt i)
  | _ => none

end Watched

/-- Is a list computed by this statement? -/
def Call.computes : Call → Bool
  | .recommending _ (.signalled _) => true
  | _ => false

/-- The list that is remembered by this statement. -/
def Call.remembers : Call → Option (Ask × Recommendations)
  | .recommending ask (.computed full) => some (ask, full)
  | _ => none

/-- One event, and what is to be seen of it. -/
def watch (halving : ℚ → ℚ) (w : Watched I) (e : Event I Operation) : Watched I :=
  let next := System.step (fun _ => Call.advance halving) Operation.apply w.system e
  { system := next
    time := w.time + 1
    quarantinedAt := fun c =>
      if !isQuarantined w.db c && isQuarantined next.store.toDb c then w.time else w.quarantinedAt c
    computedAt :=
      match e with
      | .turn i => if (w.system.calls i).computes then Function.update w.computedAt i w.time else w.computedAt
      | .outside _ => w.computedAt
    rememberedAt :=
      match e with
      | .turn i => (w.system.calls i).remembers.elim w.rememberedAt fun new => fun surface key =>
        if surface = new.2.surface ∧ key = new.1.key then w.computedAt i else w.rememberedAt surface key
      | .outside _ => w.rememberedAt }

/-! ## The promise -/

def Progress.isServed : Progress → Bool
  | .served _ => true
  | _ => false

/-- What a statement of a call may not do to a community under quarantine: put it into a list that is handed out, claim a
use of a link for somebody from outside, or let them in. -/
def CallKeeps (halving : ℚ → ℚ) (s : RecommendState) : Call → Prop
  | .recommending ask progress =>
    progress.isServed = false → ∀ list, (progress.advance halving ask s).1 = .served list →
      ∀ c, isQuarantined s.toDb c = true → list.names c = false
  | .inviting (.redeeming code u) =>
    ∀ c, ((InviteCall.redeeming code u).advance s.toDb).1 = .claimed c u →
      isQuarantined s.toDb c = true → isMember s.toDb c u = true
  | .inviting (.adding c u) =>
    ((InviteCall.adding c u).advance s.toDb).1 = .finished (.ok (.joined c)) →
      isQuarantined s.toDb c = true → isMember s.toDb c u = true
  | _ => True

/-- No community under quarantine is previewed or joined from outside, or recommended. -/
def KeepsQuarantine (halving : ℚ → ℚ) (w : Watched I) : Event I Operation → Prop
  | .turn i => CallKeeps halving w.system.store (w.system.calls i)
  | .outside (.preview code u) =>
    ∀ p, preview w.db code = .ok p → isQuarantined w.db p.communityId = true → isMember w.db p.communityId u = true
  | .outside _ => True

/-- Nobody from outside comes with a link that works. -/
def UsesNoLink (db : Db) : InviteCall → Prop
  | .redeeming code u => ∀ invite, db.communityInvites.find code = some invite → claimable db.now invite = true →
      invite.uses + 1 ≤ maxInteger → isQuarantined db invite.communityId = true → isMember db invite.communityId u = true
  | .adding c u => isQuarantined db c = true → db.userExists u = true → isMember db c u = true
  | _ => True

def CallSpares (s : RecommendState) : Call → Prop
  | .inviting call => UsesNoLink s.toDb call
  | .recommending _ _ => True

/-- Nobody from outside comes with a link that works, and no list is handed out that was computed before a community in it
came under the quarantine it is still under. -/
def Untested (w : Watched I) : Event I Operation → Prop
  | .turn i =>
    CallSpares w.system.store (w.system.calls i) ∧
      ∀ list t, w.handed i = some (list, t) →
        ∀ c, isQuarantined w.db c = true → t < w.quarantinedAt c → list.names c = false
  | .outside (.preview code u) => ∀ invite, w.db.communityInvites.find code = some invite → isUsable w.db.now invite = true →
      isQuarantined w.db invite.communityId = true → isMember w.db invite.communityId u = true
  | .outside _ => True

/-! ## What is remembered -/

/-- Does the cache of its surface hold the list, expired or not? -/
def RecommendState.Remembers (s : RecommendState) (key : CacheKey) : Recommendations → Prop
  | .rooms list => ∃ e, Map.get s.roomCache key = some e ∧ e.value = list
  | .people list => ∃ e, Map.get s.peopleCache key = some e ∧ e.value = list
  | .communities list => ∃ e, Map.get s.communityCache key = some e ∧ e.value = list

def RecommendState.caches (s : RecommendState) := (s.roomCache, s.peopleCache, s.communityCache)

section Remembers

variable {s : RecommendState} {ask : Ask} {key : CacheKey} {full list : Recommendations}

theorem remembers_of_remembered (h : s.remembered ask = some full) : s.Remembers ask.key full := by
  unfold RecommendState.remembered at h
  split at h
  · obtain ⟨list, hlist, rfl⟩ := Option.map_eq_some_iff.1 h
    exact RecommendationCache.lookup_some hlist
  · obtain ⟨list, hlist, rfl⟩ := Option.map_eq_some_iff.1 h
    exact RecommendationCache.lookup_some hlist
  · obtain ⟨list, hlist, rfl⟩ := Option.map_eq_some_iff.1 h
    exact RecommendationCache.lookup_some hlist

/-- A list that is held after another was remembered is that one, or was held before under another key or surface. -/
theorem remembers_remember (h : (s.remember ask full).Remembers key list) :
    (list = full ∧ key = ask.key) ∨ (¬ (list.surface = full.surface ∧ key = ask.key) ∧ s.Remembers key list) := by
  cases full <;> cases list <;> unfold RecommendState.remember at h
  case rooms.rooms | people.people | communities.communities =>
    obtain ⟨e, he, rfl⟩ := h
    rcases RecommendationCache.get_insert he with ⟨hkey, hvalue⟩ | ⟨hkey, he⟩
    · exact .inl ⟨congrArg _ hvalue, hkey.symm⟩
    · exact .inr ⟨fun hsame => hkey hsame.2.symm, e, he, rfl⟩
  all_goals exact .inr ⟨fun hsame => by simp [Recommendations.surface] at hsame, h⟩

theorem remembers_forget {viewer : UserId} (h : (s.forget viewer).Remembers key list) : s.Remembers key list := by
  cases list <;> obtain ⟨e, he, hvalue⟩ := h <;> exact ⟨e, (RecommendationCache.get_forgetViewer he).1, hvalue⟩

theorem remembers_congr {s' : RecommendState} (h : s'.caches = s.caches) : s'.Remembers key list ↔ s.Remembers key list := by
  obtain ⟨hrooms, h⟩ := Prod.mk.inj h
  obtain ⟨hpeople, hcommunities⟩ := Prod.mk.inj h
  cases list <;> unfold RecommendState.Remembers
  · rw [hrooms]
  · rw [hpeople]
  · rw [hcommunities]

theorem caches_withDb (db : Db) : ({ s with toDb := db } : RecommendState).caches = s.caches := rfl

/-- No operation but a withdrawal touches the caches. -/
theorem caches_apply (op : Operation) : (∃ viewer, op = .forget viewer) ∨ (op.apply s).caches = s.caches := by
  cases op with
  | forget viewer => exact .inl ⟨viewer, rfl⟩
  | service req => exact .inr (caches_withDb _)
  | quarantine c reason => exact .inr (caches_withDb _)
  | unquarantine c => exact .inr (caches_withDb _)
  | befriend friendships => exact .inr rfl
  | preview code viewer => exact .inr rfl
  | elapse nanos => exact .inr rfl

/-- No operation adds a list to a cache. -/
theorem remembers_apply {op : Operation} (h : (op.apply s).Remembers key list) : s.Remembers key list := by
  rcases caches_apply (s := s) op with ⟨viewer, rfl⟩ | hcaches
  · exact remembers_forget h
  · exact (remembers_congr hcaches).1 h

end Remembers

/-! ## Every list is as old as it should be -/

/-- The list was computed at `t`, and every community in it that is under quarantine came under it later. -/
def Watched.Dated (w : Watched I) (full : Recommendations) (t : Nat) : Prop :=
  t < w.time ∧ ∀ c, full.names c = true → isQuarantined w.db c = true → t < w.quarantinedAt c

/-- Lists that are about to be remembered, and lists that are, have their dates right. -/
structure Sound (w : Watched I) : Prop where
  computed : ∀ i ask full, w.system.calls i = .recommending ask (.computed full) → w.Dated full (w.computedAt i)
  remembered : ∀ key full, w.system.store.Remembers key full → w.Dated full (w.rememberedAt full.surface key)

section Sound

variable {halving : ℚ → ℚ} {w : Watched I} {full : Recommendations} {t : Nat}

/-- Whatever happens to the flags: a community that comes under quarantine now does so after the list was computed. -/
theorem Watched.Dated.watch (h : w.Dated full t) (e : Event I Operation) : (watch halving w e).Dated full t := by
  obtain ⟨ht, hnames⟩ := h
  refine ⟨Nat.lt_succ_of_lt ht, fun c hc hafter => ?_⟩
  change t < if !isQuarantined w.db c && isQuarantined (Recommend.watch halving w e).db c then w.time else w.quarantinedAt c
  rw [hafter]
  rcases hbefore : isQuarantined w.db c with _ | _
  · exact ht
  · exact hnames c hc hbefore

/-- A list that is computed now is dated now. -/
theorem dated_compute {i : I} {ask : Ask} {signals : ViewerSignals}
    (hcall : w.system.calls i = .recommending ask (.signalled signals)) :
    (watch halving w (.turn i)).Dated (compute halving ask signals w.db) w.time := by
  refine ⟨Nat.lt_succ_self _, fun c hc hafter => ?_⟩
  have hdb : (watch halving w (.turn i)).db = w.db := by
    change (Call.advance halving (w.system.calls i) w.system.store).2.toDb = _
    rw [hcall]
    rfl
  rw [hdb, names_compute hc] at hafter
  cases hafter

/-- A list has just been computed only where its signals were there before. -/
theorem computed_of_advance {call : Call} {s : RecommendState} {ask : Ask}
    (h : (call.advance halving s).1 = .recommending ask (.computed full)) :
    ∃ signals, call = .recommending ask (.signalled signals) ∧ full = compute halving ask signals s.toDb := by
  cases call with
  | inviting call => cases h
  | recommending ask' progress =>
    cases progress with
    | signalled signals =>
      cases h
      exact ⟨signals, rfl, rfl⟩
    | begun =>
      simp only [Call.advance, Progress.advance] at h
      split at h <;> cases h
    | missed => cases h
    | friendsRead friends => cases h
    | communitiesRead friends communities => cases h
    | roomsRead friends communities rooms => cases h
    | computed full' => cases h
    | served list => cases h

theorem call_of_remembers {call : Call} {ask : Ask} (h : call.remembers = some (ask, full)) :
    call = .recommending ask (.computed full) := by
  cases call with
  | inviting call => cases h
  | recommending ask' progress => cases progress <;> cases h; rfl

/-- Only a list that has just been computed is remembered. -/
theorem caches_advance {call : Call} (h : call.remembers = none) (s : RecommendState) :
    (call.advance halving s).2.caches = s.caches := by
  cases call with
  | inviting call => rfl
  | recommending ask progress =>
    cases progress with
    | computed full => cases h
    | begun =>
      simp only [Call.advance, Progress.advance]
      split <;> rfl
    | missed => rfl
    | friendsRead friends => rfl
    | communitiesRead friends communities => rfl
    | roomsRead friends communities rooms => rfl
    | signalled signals => rfl
    | served list => rfl

theorem computed_watch (h : Sound w) (i j : I) {ask : Ask}
    (hj : (watch halving w (.turn i)).system.calls j = .recommending ask (.computed full)) :
    (watch halving w (.turn i)).Dated full ((watch halving w (.turn i)).computedAt j) := by
  by_cases hij : j = i
  · subst hij
    change Function.update w.system.calls j _ j = _ at hj
    rw [Function.update_self] at hj
    obtain ⟨signals, hcall, rfl⟩ := computed_of_advance hj
    have hnow : (watch halving w (.turn j)).computedAt j = w.time := by
      change (if (w.system.calls j).computes then Function.update w.computedAt j w.time else w.computedAt) j = w.time
      rw [hcall]
      exact Function.update_self ..
    rw [hnow]
    exact dated_compute hcall
  · change Function.update w.system.calls i _ j = _ at hj
    rw [Function.update_of_ne hij] at hj
    have hthen : (watch halving w (.turn i)).computedAt j = w.computedAt j := by
      change (if (w.system.calls i).computes then Function.update w.computedAt i w.time else w.computedAt) j = _
      split
      · exact Function.update_of_ne hij ..
      · rfl
    rw [hthen]
    exact (h.computed j ask full hj).watch _

theorem remembered_watch (h : Sound w) (i : I) {key : CacheKey}
    (hheld : (watch halving w (.turn i)).system.store.Remembers key full) :
    (watch halving w (.turn i)).Dated full ((watch halving w (.turn i)).rememberedAt full.surface key) := by
  have hstore : (watch halving w (.turn i)).system.store = ((w.system.calls i).advance halving w.system.store).2 := rfl
  have hdates : (watch halving w (.turn i)).rememberedAt = (w.system.calls i).remembers.elim w.rememberedAt fun new =>
      fun surface key => if surface = new.2.surface ∧ key = new.1.key then w.computedAt i else w.rememberedAt surface key := rfl
  rw [hstore] at hheld
  rw [hdates]
  rcases hnew : (w.system.calls i).remembers with _ | ⟨ask, new⟩
  · rw [remembers_congr (caches_advance hnew _)] at hheld
    exact (h.remembered key full hheld).watch _
  · have hcall := call_of_remembers hnew
    rw [hcall] at hheld
    simp only [Option.elim_some]
    rcases remembers_remember hheld with ⟨rfl, rfl⟩ | ⟨hother, hbefore⟩
    · rw [if_pos ⟨rfl, rfl⟩]
      exact (h.computed i ask full hcall).watch _
    · rw [if_neg hother]
      exact (h.remembered key full hbefore).watch _

theorem sound_watch (w : Watched I) (e : Event I Operation) (h : Sound w) : Sound (watch halving w e) := by
  cases e with
  | turn i => exact ⟨fun j ask full hj => computed_watch h i j hj, fun key full hheld => remembered_watch h i hheld⟩
  | outside op =>
    refine ⟨fun j ask full hj => (h.computed j ask full hj).watch _, fun key full hheld => ?_⟩
    exact (h.remembered key full (remembers_apply hheld)).watch _

omit [DecidableEq I] in
theorem sound_start (db : Db) (requests : I → Request) : Sound (Watched.start db requests) where
  computed i ask full h := by
    change (requests i).call = _ at h
    rcases hreq : requests i with ask' | req <;> rw [hreq] at h <;> cases h
  remembered key full h := by
    cases full <;> obtain ⟨e, he, -⟩ := h <;> cases he

end Sound

/-! ## Links -/

section Links

variable {db : Db} {c : CommunityId} {u : UserId} {code : String}

theorem exists_of_quarantined (h : isQuarantined db c = true) : ∃ row, db.communities.find c = some row ∧ row.id = c := by
  unfold isQuarantined at h
  rcases hrow : db.communities.find c with _ | row
  · rw [hrow] at h
    cases h
  · exact ⟨row, rfl, Table.find_key hrow⟩

theorem communityExists_of_quarantined (h : isQuarantined db c = true) : db.communityExists c = true := by
  obtain ⟨row, hrow, -⟩ := exists_of_quarantined h
  unfold Db.communityExists Table.contains
  rw [hrow]
  rfl

/-- A link leads to a community under quarantine as it leads to any other. -/
theorem previewed_of_preview {p : InvitePreview} (h : preview db code = .ok p) :
    ∃ invite, db.communityInvites.find code = some invite ∧ isUsable db.now invite = true ∧ p.communityId = invite.communityId := by
  unfold preview previewed findInvite at h
  rcases hfind : db.communityInvites.find code with _ | invite
  · rw [hfind] at h
    cases h
  · rw [hfind] at h
    simp only [bind, Except.bind] at h
    by_cases hu : isUsable db.now invite = true
    · simp only [if_pos hu] at h
      refine ⟨invite, rfl, hu, ?_⟩
      rcases hc : db.communities.find invite.communityId with _ | row
      · rw [hc] at h
        cases h
      · rw [hc] at h
        cases h
        exact Table.find_key hc
    · simp only [if_neg hu] at h
      cases h

theorem preview_of_usable {invite : Invite} (hfind : db.communityInvites.find code = some invite)
    (hu : isUsable db.now invite = true) (hq : isQuarantined db invite.communityId = true) :
    ∃ p, preview db code = .ok p ∧ p.communityId = invite.communityId := by
  obtain ⟨row, hrow, hid⟩ := exists_of_quarantined hq
  unfold preview previewed findInvite
  rw [hfind]
  simp only [bind, Except.bind, if_pos hu, hrow]
  exact ⟨_, rfl, hid⟩

theorem redeeming_claims :
    ((InviteCall.redeeming code u).advance db).1 = .claimed c u ↔ ∃ invite, db.communityInvites.find code = some invite ∧
      claimable db.now invite = true ∧ invite.uses + 1 ≤ maxInteger ∧ invite.communityId = c := by
  have hclaims : ((InviteCall.redeeming code u).advance db).1 = .claimed c u ↔ ((claimUse code).exec db).1 = .ok (some c) := by
    simp only [InviteCall.advance]
    rcases (claimUse code).exec db with ⟨e | _ | c', db'⟩ <;> simp
  rw [hclaims, exec_claimUse]
  rcases hf : (db.communityInvites.find code).filter (claimable db.now) with _ | invite
  · refine iff_of_false (fun h => by cases h) ?_
    rintro ⟨invite, hfind, hclaim, -⟩
    rw [hfind, Option.filter_some_pos hclaim] at hf
    cases hf
  · obtain ⟨hfind, hclaim⟩ := Option.filter_eq_some_iff.1 hf
    simp only [hfind, Option.some.injEq, exists_eq_left', hclaim, true_and]
    by_cases hfits : invite.uses + 1 ≤ maxInteger
    · simp [hfits]
    · simp [hfits]

theorem addMemberRow_outcome (c : CommunityId) (u : UserId) (db : Db) :
    ((addMemberRow c u).exec db).1 =
      if isMember db c u then .error (.repository (.conflict "community_members_pkey"))
      else if db.communityExists c && db.userExists u then .ok { communityId := c, userId := u }
      else .error (.repository .foreignKey) := by
  unfold addMemberRow isMember
  rw [Prog.exec_transaction, SqlM.exec_check_bind, SqlM.exec_check_bind]
  rcases db.communityMembers.contains (c, u)
  · rcases db.communityExists c && db.userExists u <;> rfl
  · rfl

/-- Who is not a member is let in wherever the community and the account exist. -/
theorem adding_joins (hmember : isMember db c u = false) (hc : db.communityExists c = true) :
    ((InviteCall.adding c u).advance db).1 = .finished (.ok (.joined c)) ↔ db.userExists u = true := by
  have houtcome := addMemberRow_outcome c u db
  rw [hmember, hc] at houtcome
  simp only [InviteCall.advance]
  rcases hx : (addMemberRow c u).exec db with ⟨r, db'⟩
  rw [hx] at houtcome
  rcases hu : db.userExists u <;> rw [hu] at houtcome
  · obtain rfl : r = .error (.repository .foreignKey) := houtcome
    simp [isConflict]
  · obtain rfl : r = .ok { communityId := c, userId := u } := houtcome
    simp

end Links

/-! ## The promise -/

section Promise

variable {halving : ℚ → ℚ} {w : Watched I}

/-- A list is handed out as it was remembered, or as it has just been computed. -/
theorem served_of_advance {ask : Ask} {progress : Progress} {s : RecommendState} {list : Recommendations}
    (hopen : progress.isServed = false) (h : (progress.advance halving ask s).1 = .served list) :
    (∃ hit, progress = .begun ∧ s.remembered ask = some hit ∧ list = hit.take ask.limitOf) ∨
    ∃ full, progress = .computed full ∧ list = full.take ask.limitOf := by
  cases progress with
  | begun =>
    simp only [Progress.advance] at h
    rcases hr : s.remembered ask with _ | hit
    · rw [hr] at h
      cases h
    · rw [hr] at h
      cases h
      exact .inl ⟨hit, rfl, rfl, rfl⟩
  | computed full =>
    cases h
    exact .inr ⟨full, rfl, rfl⟩
  | missed => cases h
  | friendsRead friends => cases h
  | communitiesRead friends communities => cases h
  | roomsRead friends communities rooms => cases h
  | signalled signals => cases h
  | served list => cases hopen

omit [DecidableEq I] in
/-- What a call hands out has been dated. -/
theorem handed_of_served {i : I} {ask : Ask} {progress : Progress} {list : Recommendations}
    (hcall : w.system.calls i = .recommending ask progress) (hopen : progress.isServed = false)
    (hserved : (progress.advance halving ask w.system.store).1 = .served list) : ∃ t, w.handed i = some (list, t) := by
  unfold Watched.handed
  rw [hcall]
  rcases served_of_advance hopen hserved with ⟨hit, rfl, hr, rfl⟩ | ⟨full, rfl, rfl⟩
  · simp only [hr]
    exact ⟨_, rfl⟩
  · exact ⟨_, rfl⟩

omit [DecidableEq I] in
/-- A list that is handed out comes from a cache or from the call itself, and is as old as its date says. -/
theorem served_of_handed (halving : ℚ → ℚ) (h : Sound w) {i : I} {list : Recommendations} {t : Nat} (hhanded : w.handed i = some (list, t)) :
    w.Dated list t ∧ ∃ ask progress, w.system.calls i = .recommending ask progress ∧ progress.isServed = false ∧
      (progress.advance halving ask w.system.store).1 = .served list := by
  unfold Watched.handed at hhanded
  split at hhanded
  · rename_i ask hcall
    obtain ⟨full, hr, hlist⟩ := Option.map_eq_some_iff.1 hhanded
    cases hlist
    obtain ⟨ht, hnames⟩ := h.remembered ask.key full (remembers_of_remembered hr)
    refine ⟨⟨ht, fun c hc => hnames c (names_take hc)⟩, ask, .begun, hcall, rfl, ?_⟩
    simp only [Progress.advance, hr]
  · rename_i ask full hcall
    cases hhanded
    obtain ⟨ht, hnames⟩ := h.computed i ask full hcall
    exact ⟨⟨ht, fun c hc => hnames c (names_take hc)⟩, ask, .computed full, hcall, rfl, rfl⟩
  · cases hhanded

omit [DecidableEq I] in
theorem recommending_iff (h : Sound w) {i : I} {ask : Ask} {progress : Progress}
    (hcall : w.system.calls i = .recommending ask progress) :
    KeepsQuarantine halving w (.turn i) ↔ Untested w (.turn i) := by
  simp only [KeepsQuarantine, Untested, hcall]
  constructor
  · intro hkeeps
    refine ⟨trivial, fun list t hhanded c hc _ => ?_⟩
    obtain ⟨-, ask', progress', hcall', hopen, hserved⟩ := served_of_handed halving h hhanded
    rw [hcall] at hcall'
    cases hcall'
    exact hkeeps hopen list hserved c hc
  · rintro ⟨-, hfresh⟩ hopen list hserved c hc
    obtain ⟨t, hhanded⟩ := handed_of_served hcall hopen hserved
    obtain ⟨⟨-, hdated⟩, -⟩ := served_of_handed halving h hhanded
    by_contra hnames
    have hnames := Bool.eq_true_of_not_eq_false hnames
    rw [hfresh list t hhanded c hc (hdated c hnames hc)] at hnames
    cases hnames

/-- An invite call keeps the promise where it is not put to the test. -/
theorem inviting_iff (s : RecommendState) (call : InviteCall) :
    CallKeeps halving s (.inviting call) ↔ UsesNoLink s.toDb call := by
  cases call with
  | redeeming code u =>
    constructor
    · intro h invite hfind hclaim hfits hq
      exact h invite.communityId (redeeming_claims.2 ⟨invite, hfind, hclaim, hfits, rfl⟩) hq
    · rintro h c hclaimed hq
      obtain ⟨invite, hfind, hclaim, hfits, rfl⟩ := redeeming_claims.1 hclaimed
      exact h invite hfind hclaim hfits hq
  | adding c u =>
    constructor
    · intro h hq hu
      by_contra hmember
      have hmember := Bool.eq_false_of_not_eq_true hmember
      exact absurd (h ((adding_joins hmember (communityExists_of_quarantined hq)).2 hu) hq) (by rw [hmember]; decide)
    · intro h hjoined hq
      by_contra hmember
      have hmember := Bool.eq_false_of_not_eq_true hmember
      exact absurd (h hq ((adding_joins hmember (communityExists_of_quarantined hq)).1 hjoined)) (by rw [hmember]; decide)
  | _ => exact Iff.rfl

omit [DecidableEq I] in
/-- One event. -/
theorem keeps_iff (w : Watched I) (e : Event I Operation) (h : Sound w) : KeepsQuarantine halving w e ↔ Untested w e := by
  cases e with
  | turn i =>
    rcases hcall : w.system.calls i with ⟨ask, progress⟩ | call
    · exact recommending_iff h hcall
    · simp only [KeepsQuarantine, Untested, hcall, inviting_iff]
      refine (and_iff_left ?_).symm
      intro list t hhanded
      unfold Watched.handed at hhanded
      rw [hcall] at hhanded
      cases hhanded
  | outside op =>
    cases op with
    | preview code u =>
      constructor
      · intro hkeeps invite hfind hu hq
        obtain ⟨p, hp, hid⟩ := preview_of_usable hfind hu hq
        rw [← hid] at hq ⊢
        exact hkeeps p hp hq
      · intro hspares p hp hq
        obtain ⟨invite, hfind, hu, hid⟩ := previewed_of_preview hp
        rw [hid] at hq ⊢
        exact hspares invite hfind hu hq
    | _ => exact Iff.rfl

/-- In every run: from the moment a community comes under quarantine until the quarantine is lifted, nobody from outside
previews or redeems a link to it and it is in no list that is handed out, exactly as long as nobody from outside comes with
a link that would work for any other community, and no list is handed out that was computed before a quarantine, still in
force, of a community it names. -/
theorem quarantine_kept_iff (halving : ℚ → ℚ) (db : Db) (requests : I → Request) (es : List (Event I Operation)) :
    Along (watch halving) (KeepsQuarantine halving) (Watched.start db requests) es ↔
      Along (watch halving) Untested (Watched.start db requests) es :=
  along_congr sound_watch keeps_iff (sound_start db requests)

end Promise

end Watch

/-! ### A community that nothing hides -/

/-- The list a call has handed out. -/
def Call.handedOut : Call → Option Recommendations
  | .recommending _ (.served list) => some list
  | _ => none

inductive Visit where
  | first
  | again
  | invited
  deriving DecidableEq

/-- `ana` asks twice where there is something to explore, and `ben` has a link. -/
def visitors : Visit → Request
  | .first => .recommend { viewer := ⟨2⟩, surface := .communities, limit := none }
  | .again => .recommend { viewer := ⟨2⟩, surface := .communities, limit := none }
  | .invited => .invite (.redeem "22222222" ⟨3⟩)

/-- Her first list is computed and remembered. -/
def beforeQuarantine : List (Event Visit Operation) := List.replicate 7 (.turn .first)

/-- The community comes under quarantine; `ben` looks where the link leads, she asks again, and he redeems it. -/
def underQuarantine : List (Event Visit Operation) :=
  [.outside (.quarantine ⟨1⟩ "spam"), .outside (.preview "22222222" ⟨3⟩), .turn .again, .turn .invited, .turn .invited,
    .turn .invited, .turn .invited]

def halve (_ : ℚ) : ℚ := 1 / 2

def exposed : Watched Visit := run (watch halve) (Watched.start opened visitors) (beforeQuarantine ++ underQuarantine)

/-- Under quarantine, the community is previewed, recommended and joined. -/
theorem quarantine_leaks :
    ¬ Along (watch halve) (KeepsQuarantine halve) (Watched.start opened visitors) (beforeQuarantine ++ underQuarantine) ∧
    isQuarantined exposed.db ⟨1⟩ = true ∧
    ((exposed.system.calls .again).handedOut.any fun list => list.names ⟨1⟩) = true ∧
    isMember exposed.db ⟨1⟩ ⟨3⟩ = true := by
  refine ⟨fun h => ?_, by decide +kernel, by decide +kernel, by decide +kernel⟩
  -- `ben` looks where the link leads
  have hkeeps := (along_append.1 h).2.2.1
  have hfind : (watch halve (run (watch halve) (Watched.start opened visitors) beforeQuarantine)
      (.outside (.quarantine ⟨1⟩ "spam"))).db.communityInvites.find "22222222" = some (usedLink 0) := by decide +kernel
  obtain ⟨p, hp, hid⟩ := preview_of_usable hfind (by decide +kernel) (by decide +kernel)
  have hmember := hkeeps p hp (by rw [hid]; decide +kernel)
  rw [hid] at hmember
  exact absurd hmember (by decide +kernel)

end Genzh.Recommend
