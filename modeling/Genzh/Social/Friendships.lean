/-
Friend requests, answers and blocks, one statement of one call after the other. A call checks one table and writes the
other, or the same one, in a later statement: a request asks about blocks and then inserts a row, an answer reads the row
and then updates it, a block inserts itself and then deletes the row.

`lawful_iff` is about every interleaving. The unordered pair has one row at most, and a row stops being pending once at
most, always; that no block stands between two users who are friends or about to be holds exactly as long as neither of
them comes about while the other is there.
-/
import Genzh.Social.Service
import Genzh.Lib.Interleaving

namespace Genzh.Social

open Genzh.Lib Genzh.Domain Genzh.Infrastructure

/-! ## Rows -/

/-- Only the addressee may accept or decline, and only while pending. -/
def canRespond (f : Friendship) (userId : UserId) : Bool := f.status = .pending && f.addresseeId = userId

/-- Is it the row of the two, whoever asked? -/
def between (a b : UserId) (f : Friendship) : Bool :=
  (f.requesterId = a && f.addresseeId = b) || (f.requesterId = b && f.addresseeId = a)

/-- Is it a friendship, or a request for one? -/
def live (f : Friendship) : Bool := f.status ≠ .declined

/-- `(LEAST(a, b), GREATEST(a, b))`, the key of the index on unordered pairs. -/
def unorderedPair (a b : UserId) : Uuid × Uuid := if a.uuid.toNat ≤ b.uuid.toNat then (a.uuid, b.uuid) else (b.uuid, a.uuid)

def pair (f : Friendship) : Uuid × Uuid := unorderedPair f.requesterId f.addresseeId

theorem unorderedPair_comm (a b : UserId) : unorderedPair a b = unorderedPair b a := by
  unfold unorderedPair
  rcases lt_trichotomy a.uuid.toNat b.uuid.toNat with h | h | h
  · rw [if_pos (by omega), if_neg (by omega)]
  · rw [BitVec.eq_of_toNat_eq h]
  · rw [if_neg (by omega), if_pos (by omega)]

/-- The index identifies what it should: a pair with its mirror image, and nothing else. -/
theorem unorderedPair_eq {a b c d : UserId} : unorderedPair a b = unorderedPair c d ↔ a = c ∧ b = d ∨ a = d ∧ b = c := by
  constructor
  · intro h
    rcases a with ⟨a⟩
    rcases b with ⟨b⟩
    rcases c with ⟨c⟩
    rcases d with ⟨d⟩
    unfold unorderedPair at h
    split at h <;> split at h <;> obtain ⟨rfl, rfl⟩ := Prod.mk.inj h <;> simp
  · rintro (⟨rfl, rfl⟩ | ⟨rfl, rfl⟩)
    · rfl
    · exact unorderedPair_comm _ _

theorem between_iff {a b : UserId} {f : Friendship} : between a b f = true ↔ pair f = unorderedPair a b := by
  unfold between pair
  rw [unorderedPair_eq]
  simp [Bool.or_eq_true, Bool.and_eq_true]

/-! ## Statements -/

/-- The row of a pair, in either direction. -/
def findBetween (db : Db) (a b : UserId) : Option Friendship := db.friendships.rows.find? (between a b)

/-- Are the constraints of `friendships` kept by a request from one to the other? -/
def requestable (db : Db) (a b : UserId) : Except RepositoryError Unit :=
  if a = b then .error .database
  else if db.friendships.contains (a, b) then .error (.conflict "friendships_pkey")
  else if db.friendships.rows.any fun f => pair f = unorderedPair a b then .error (.conflict "friendships_unordered_pair_idx")
  else if !(db.userExists a && db.userExists b) then .error .foreignKey
  else .ok ()

/-- A request just made. -/
def requested (a b : UserId) : Friendship := { requesterId := a, addresseeId := b, status := .pending }

/-- `INSERT INTO friendships`. -/
def withRequest (a b : UserId) (db : Db) : Db := { db with friendships := db.friendships.insert (requested a b) }

/-- `UPDATE friendships SET status` of one row. -/
def withStatus (a b : UserId) (status : FriendshipStatus) (db : Db) : Db :=
  { db with friendships := db.friendships.update (a, b) (fun f => { f with status }) fun _ => rfl }

/-- `DELETE FROM friendships`, whichever of the two asked. -/
def unfriended (a b : UserId) (db : Db) : Db := { db with friendships := db.friendships.deleteWhere (between a b) }

/-- `INSERT INTO blocks`. -/
def withBlock (a b : UserId) (db : Db) : Db :=
  { db with blocks := db.blocks.insert { blockerId := a, blockedId := b, createdAt := db.now } }

/-! ## Calls -/

inductive SocialRequest where
  | requestFriend (requester addressee : UserId)
  | respond (addressee requester : UserId) (accept : Bool)
  | removeFriend (user other : UserId)
  | block (blocker blocked : UserId)
  | unblock (blocker blocked : UserId)
  deriving DecidableEq, Repr

/-- How far a call has come. -/
inductive SocialCall where
  | asked (r : SocialRequest)
  /-- No block stood between the two. -/
  | reached (requester addressee : UserId)
  /-- Nor was there a row. -/
  | inserting (requester addressee : UserId)
  | responding (addressee requester : UserId) (accept : Bool)
  /-- The row was pending, and the caller its addressee. -/
  | settling (requester addressee : UserId) (accept : Bool)
  | severing (blocker blocked : UserId)
  | answered (result : Except ServiceError (Option Friendship))
  deriving DecidableEq, Repr

/-- What an answer makes of a request. -/
def decided (accept : Bool) : FriendshipStatus := if accept then .accepted else .declined

/-- Accept or decline a pending request: what is asked of the row first. -/
def respondTo (db : Db) (addressee requester : UserId) (accept : Bool) : SocialCall :=
  match findBetween db addressee requester with
  | none => .answered (.error (.notFound "friendship"))
  | some existing =>
    if !canRespond existing addressee then .answered (.error (.denied "friend_request_addressee_only"))
    else .settling existing.requesterId existing.addresseeId accept

/-- The next statement. -/
def SocialCall.advance (call : SocialCall) (db : Db) : SocialCall × Db :=
  match call with
  | asked (.requestFriend requester addressee) =>
    match ensureDistinctUsers requester addressee with
    | .error e => (answered (.error (.domain e)), db)
    | .ok () =>
      match ensureCanReach db requester addressee with
      | .error e => (answered (.error e), db)
      | .ok () => (reached requester addressee, db)
  | asked (.respond addressee requester accept) => (respondTo db addressee requester accept, db)
  | asked (.removeFriend user other) =>
    match ensureDistinctUsers user other with
    | .error e => (answered (.error (.domain e)), db)
    | .ok () =>
      (answered (if (findBetween db user other).isSome then .ok none else .error (.notFound "friendship")), unfriended user other db)
  | asked (.block blocker blocked) =>
    match ensureDistinctUsers blocker blocked with
    | .error e => (answered (.error (.domain e)), db)
    | .ok () =>
      if !(db.userExists blocker && db.userExists blocked) then (answered (.error (.repository .foreignKey)), db)
      else (severing blocker blocked, withBlock blocker blocked db)
  | asked (.unblock blocker blocked) =>
    (answered (if db.blocks.contains (blocker, blocked) then .ok none else .error (.notFound "block")),
      { db with blocks := db.blocks.delete (blocker, blocked) })
  | reached requester addressee =>
    match findBetween db requester addressee with
    | none => (inserting requester addressee, db)
    | some existing =>
      -- requesting back accepts the request that is there
      if existing.status = .pending ∧ existing.addresseeId = requester then
        (responding requester existing.requesterId true, db)
      else (answered (.error (.domain (.conflict "friendship"))), db)
  | inserting requester addressee =>
    match requestable db requester addressee with
    | .error e => (answered (.error (.repository e)), db)
    | .ok () => (answered (.ok (some (requested requester addressee))), withRequest requester addressee db)
  | responding addressee requester accept => (respondTo db addressee requester accept, db)
  | settling requester addressee accept =>
    match db.friendships.find (requester, addressee) with
    | none => (answered (.error (.repository (.notFound "friendship"))), db)
    | some f =>
      (answered (.ok (some { f with status := decided accept })), withStatus requester addressee (decided accept) db)
  | severing blocker blocked => (answered (.ok none), unfriended blocker blocked db)
  | answered result => (answered result, db)

section System

variable {I : Type} [DecidableEq I]

abbrev SocialSystem (I : Type) := System Db I SocialCall

/-- Nobody knows anybody yet, and everything is yet to be asked. -/
def SocialSystem.start (db : Db) (requests : I → SocialRequest) : SocialSystem I :=
  { store := { db with friendships := .empty, blocks := .empty }, calls := fun i => .asked (requests i) }

/-- Whatever else happens to the database leaves the two tables alone. -/
def elsewhere (new db : Db) : Db := { new with friendships := db.friendships, blocks := db.blocks }

def socialStep : SocialSystem I → Event I Db → SocialSystem I := System.step (fun _ => SocialCall.advance) elsewhere

end System

/-! ### A statement in closed form -/

/-- Is the block accepted? -/
def blockable (db : Db) (a b : UserId) : Bool := a ≠ b && (db.userExists a && db.userExists b)

/-- A request that is inserted, or a friendship that is made, finds no block; a block that is inserted finds neither
friendship nor request. -/
def SocialCall.clear (db : Db) : SocialCall → Bool
  | inserting a b => !((requestable db a b).isOk && blockedEitherWay db a b)
  | settling a b accept => !(db.friendships.contains (a, b) && accept && blockedEitherWay db a b)
  | asked (.block a b) => !(blockable db a b && db.friendships.rows.any fun f => live f && between a b f)
  | _ => true

/-- What a statement of a call does to the database. -/
inductive Statement (db : Db) : SocialCall → Db → Prop where
  | read {call : SocialCall} (h : call.clear db = true) : Statement db call db
  | request {a b : UserId} (h : requestable db a b = .ok ()) : Statement db (.inserting a b) (withRequest a b db)
  | settle {a b : UserId} {accept : Bool} {f : Friendship} (h : db.friendships.find (a, b) = some f) :
      Statement db (.settling a b accept) (withStatus a b (decided accept) db)
  | sever {call : SocialCall} (a b : UserId) (h : call.clear db = true) : Statement db call (unfriended a b db)
  | block {a b : UserId} (h : blockable db a b = true) : Statement db (.asked (.block a b)) (withBlock a b db)
  | unblock {a b : UserId} : Statement db (.asked (.unblock a b)) { db with blocks := db.blocks.delete (a, b) }

theorem statement_advance (call : SocialCall) (db : Db) : Statement db call (call.advance db).2 := by
  cases call with
  | asked r =>
    cases r with
    | requestFriend a b =>
      simp only [SocialCall.advance]
      split
      · exact .read rfl
      · split <;> exact .read rfl
    | respond a b accept => exact .read rfl
    | removeFriend a b =>
      simp only [SocialCall.advance]
      split
      · exact .read rfl
      · exact .sever a b rfl
    | block a b =>
      simp only [SocialCall.advance]
      unfold ensureDistinctUsers
      by_cases hab : a = b
      · rw [if_pos hab]
        exact .read (by simp [SocialCall.clear, blockable, hab])
      · rw [if_neg hab]
        simp only
        by_cases hex : (db.userExists a && db.userExists b) = true
        · rw [if_neg (by rw [hex]; decide)]
          exact .block (by simp [blockable, hab, hex])
        · rw [if_pos (by rw [Bool.not_eq_true] at hex; rw [hex]; rfl)]
          exact .read (by simp [SocialCall.clear, blockable, hex])
    | unblock a b => exact .unblock
  | reached a b =>
    simp only [SocialCall.advance]
    split
    · exact .read rfl
    · split <;> exact .read rfl
  | inserting a b =>
    simp only [SocialCall.advance]
    rcases hreq : requestable db a b with e | ⟨⟩
    · exact .read (by simp [SocialCall.clear, hreq, Except.isOk, Except.toBool])
    · exact .request hreq
  | responding a b accept => exact .read rfl
  | settling a b accept =>
    simp only [SocialCall.advance]
    rcases hfind : db.friendships.find (a, b) with _ | f
    · exact .read (by simp [SocialCall.clear, Table.contains, hfind])
    · exact .settle hfind
  | severing a b => exact .sever a b rfl
  | answered result => exact .read rfl

/-- By itself, blocking is what the service does. -/
theorem block_alone (a b : UserId) (db : Db) :
    ((SocialCall.advance (.asked (.block a b)) db).1.advance (SocialCall.advance (.asked (.block a b)) db).2).2 =
      ((Social.block a b).exec db).2 := by
  unfold Social.block
  rw [Prog.exec_lift_bind]
  simp only [SocialCall.advance]
  unfold ensureDistinctUsers
  by_cases hab : a = b
  · simp [hab, liftDomain]
  · simp only [if_neg hab, liftDomain, SqlM.exec_check_bind]
    by_cases hex : (db.userExists a && db.userExists b) = true
    · rw [if_neg (by rw [hex]; decide), if_pos hex]
      rfl
    · rw [if_pos (by rw [Bool.not_eq_true] at hex; rw [hex]; rfl), if_neg hex]

/-! ## The law -/

/-- At most one row for an unordered pair. -/
def OnePerPair (db : Db) : Prop := ∀ f ∈ db.friendships.rows, ∀ f' ∈ db.friendships.rows, pair f = pair f' → f = f'

/-- No friendship, and no request for one, between two users while a block stands between them. -/
def Severed (db : Db) : Prop := ∀ f ∈ db.friendships.rows, live f = true → blockedEitherWay db f.requesterId f.addresseeId = false

section Statements

variable {db : Db} {a b c d : UserId}

theorem requestable_ok (h : requestable db a b = .ok ()) :
    a ≠ b ∧ db.friendships.contains (a, b) = false ∧ ∀ f ∈ db.friendships.rows, pair f ≠ unorderedPair a b := by
  unfold requestable at h
  by_cases hab : a = b
  · rw [if_pos hab] at h
    cases h
  · rw [if_neg hab] at h
    by_cases hkey : db.friendships.contains (a, b)
    · rw [if_pos hkey] at h
      cases h
    · rw [if_neg hkey] at h
      by_cases hidx : db.friendships.rows.any fun f => pair f = unorderedPair a b
      · rw [if_pos hidx] at h
        cases h
      · refine ⟨hab, by simpa using hkey, fun f hf heq => hidx (List.any_eq_true.2 ⟨f, hf, decide_eq_true heq⟩)⟩

theorem rows_withRequest (h : db.friendships.contains (a, b) = false) {f : Friendship} :
    f ∈ (withRequest a b db).friendships.rows ↔ f ∈ db.friendships.rows ∨ f = requested a b := by
  refine Table.mem_insert.trans (or_congr_right ?_)
  exact and_iff_left h

/-- An update leaves the rows where they are: the pair of each stays, and the status of one may change. -/
theorem mem_withStatus {status : FriendshipStatus} {f : Friendship} (h : f ∈ (withStatus a b status db).friendships.rows) :
    ∃ g ∈ db.friendships.rows, f = if (g.requesterId, g.addresseeId) = (a, b) then { g with status } else g := by
  obtain ⟨g, hg, rfl⟩ := List.mem_map.1 h
  refine ⟨g, hg, ?_⟩
  simp only [decide_eq_true_eq]
  rfl

theorem pair_update (g : Friendship) (status : FriendshipStatus) :
    pair (if (g.requesterId, g.addresseeId) = (a, b) then { g with status } else g) = pair g := by
  split <;> rfl

theorem blockedEitherWay_withBlock :
    blockedEitherWay (withBlock a b db) c d = (blockedEitherWay db c d || decide (unorderedPair c d = unorderedPair a b)) := by
  have hpair : decide (unorderedPair c d = unorderedPair a b) = (decide ((a, b) = (c, d)) || decide ((a, b) = (d, c))) := by
    rw [decide_eq_decide.2 unorderedPair_eq, Bool.decide_or]
    simp only [Prod.mk.injEq, eq_comm (a := a), eq_comm (a := b)]
    congr 2
    exact propext and_comm
  unfold blockedEitherWay withBlock
  simp only [Table.contains_insert, key]
  rw [hpair]
  ac_rfl

/-- The one row of a pair stays the only one. -/
theorem onePerPair_statement {call : SocialCall} {db' : Db} (hs : Statement db call db') (h : OnePerPair db) : OnePerPair db' := by
  cases hs with
  | read => exact h
  | @request a b hreq =>
    obtain ⟨-, hkey, hnew⟩ := requestable_ok hreq
    intro f hf f' hf' heq
    rcases (rows_withRequest hkey).1 hf with hf | rfl
    · rcases (rows_withRequest hkey).1 hf' with hf' | rfl
      · exact h f hf f' hf' heq
      · exact absurd heq (hnew f hf)
    · rcases (rows_withRequest hkey).1 hf' with hf' | rfl
      · exact absurd heq.symm (hnew f' hf')
      · rfl
  | @settle a b accept f0 hfind =>
    intro f hf f' hf' heq
    obtain ⟨g, hg, rfl⟩ := mem_withStatus hf
    obtain ⟨g', hg', rfl⟩ := mem_withStatus hf'
    rw [pair_update, pair_update] at heq
    rw [h g hg g' hg' heq]
  | sever a b =>
    intro f hf f' hf' heq
    exact h f (Table.mem_deleteWhere.1 hf).1 f' (Table.mem_deleteWhere.1 hf').1 heq
  | block => exact h
  | unblock => exact h

theorem severed_withRequest (h : Severed db) (hkey : db.friendships.contains (a, b) = false) :
    Severed (withRequest a b db) ↔ blockedEitherWay db a b = false := by
  constructor
  · intro hsev
    exact hsev (requested a b) ((rows_withRequest hkey).2 (.inr rfl)) rfl
  · intro hb f hf hlive
    rcases (rows_withRequest hkey).1 hf with hf | rfl
    · exact h f hf hlive
    · exact hb

/-- Only accepting makes a friendship. -/
theorem severed_withStatus (h : Severed db) {f : Friendship} (hmem : f ∈ db.friendships.rows) (accept : Bool) :
    Severed (withStatus f.requesterId f.addresseeId (decided accept) db) ↔
      (accept = true → blockedEitherWay db f.requesterId f.addresseeId = false) := by
  constructor
  · rintro hsev rfl
    refine hsev { f with status := .accepted } ?_ rfl
    exact (Table.mem_update db.friendships (f.requesterId, f.addresseeId) (fun g => { g with status := .accepted }) fun _ => rfl).2
      (.inl ⟨f, hmem, rfl, rfl⟩)
  · intro hb g hg hlive
    obtain ⟨g, hmem', rfl⟩ := mem_withStatus hg
    by_cases hgf : (g.requesterId, g.addresseeId) = (f.requesterId, f.addresseeId)
    · rw [if_pos hgf] at hlive ⊢
      obtain ⟨hr, ha⟩ := Prod.mk.inj hgf
      change blockedEitherWay db g.requesterId g.addresseeId = false
      rw [hr, ha]
      refine hb ?_
      -- a declined row is not live
      cases accept with
      | true => rfl
      | false => cases hlive
    · rw [if_neg hgf] at hlive ⊢
      exact h g hmem' hlive

theorem severed_withBlock (h : Severed db) :
    Severed (withBlock a b db) ↔ ∀ f ∈ db.friendships.rows, live f = true → pair f ≠ unorderedPair a b := by
  constructor
  · intro hsev f hf hlive hpair
    have := hsev f hf hlive
    rw [blockedEitherWay_withBlock, Bool.or_eq_false_iff] at this
    exact of_decide_eq_false this.2 hpair
  · intro hnone f hf hlive
    rw [blockedEitherWay_withBlock, Bool.or_eq_false_iff]
    exact ⟨h f hf hlive, decide_eq_false (hnone f hf hlive)⟩

/-- A statement keeps friends and blocks apart exactly if it is clear. -/
theorem severed_statement {call : SocialCall} {db' : Db} (hs : Statement db call db') (h : Severed db) :
    Severed db' ↔ call.clear db = true := by
  cases hs with
  | read hclear => exact iff_of_true h hclear
  | @request a b hreq =>
    obtain ⟨-, hkey, -⟩ := requestable_ok hreq
    rw [severed_withRequest h hkey]
    simp [SocialCall.clear, hreq, Except.isOk, Except.toBool]
  | @settle a b accept f hfind =>
    obtain ⟨hmem, hkey⟩ := Table.find_eq_some.1 hfind
    obtain ⟨rfl, rfl⟩ := Prod.mk.inj hkey
    have hcontains : db.friendships.contains (f.requesterId, f.addresseeId) = true := Table.contains_iff.2 ⟨f, hfind⟩
    rw [severed_withStatus h hmem]
    cases accept <;> simp [SocialCall.clear, hcontains]
  | sever a b hclear =>
    refine iff_of_true ?_ hclear
    exact fun f hf hlive => h f (Table.mem_deleteWhere.1 hf).1 hlive
  | @block a b hb =>
    rw [severed_withBlock h]
    simp only [SocialCall.clear, hb, Bool.true_and, Bool.not_eq_true', List.any_eq_false, Bool.and_eq_true, between_iff, not_and]
  | @unblock a b =>
    refine iff_of_true (fun f hf hlive => ?_) rfl
    have := h f hf hlive
    unfold blockedEitherWay at this ⊢
    rw [Bool.or_eq_false_iff] at this ⊢
    simp only [Table.contains_delete]
    rw [this.1, this.2]
    exact ⟨rfl, rfl⟩

end Statements

/-! ## How often a request is answered -/

/-- How often the status of the row under each key has left pending since the row is there: once more, if it does. -/
def departures (before after : Db) (left : UserId × UserId → Nat) (k : UserId × UserId) : Nat :=
  match before.friendships.find k, after.friendships.find k with
  | some f, some f' => if f.status = .pending ∧ f'.status ≠ .pending then left k + 1 else left k
  | _, _ => 0

/-- A row that is not pending has left it once, and a pending one never. -/
def Counted (db : Db) (left : UserId × UserId → Nat) : Prop :=
  ∀ k, left k = if (db.friendships.find k).any fun f => f.status ≠ .pending then 1 else 0

section Counted

variable {db db' : Db} {left : UserId × UserId → Nat}

theorem Counted.le_one (h : Counted db left) (k : UserId × UserId) : left k ≤ 1 := by
  rw [h k]
  split <;> omega

/-- Where rows come as pending ones and never become pending again, none leaves it twice. -/
theorem Counted.departures (h : Counted db left)
    (hnew : ∀ k f, db.friendships.find k = none → db'.friendships.find k = some f → f.status = .pending)
    (hkept : ∀ k f f', db.friendships.find k = some f → db'.friendships.find k = some f' → f'.status = .pending →
      f.status = .pending) : Counted db' (departures db db' left) := by
  intro k
  have hk := h k
  unfold Social.departures
  rcases hf : db.friendships.find k with _ | f
  · rcases hf' : db'.friendships.find k with _ | f'
    · rfl
    · simp [hnew k f' hf hf']
  · rcases hf' : db'.friendships.find k with _ | f'
    · rfl
    · rw [hf] at hk
      have := hkept k f f' hf hf'
      by_cases hp : f.status = .pending <;> by_cases hp' : f'.status = .pending <;> simp_all

theorem Counted.same (h : Counted db left) (hsame : db'.friendships = db.friendships) : Counted db' (Social.departures db db' left) := by
  refine h.departures (fun k f hnone hsome => ?_) fun k f f' hf hf' hp => ?_
  · rw [hsame, hnone] at hsome
    cases hsome
  · rw [hsame, hf] at hf'
    rw [Option.some.inj hf']
    exact hp

theorem counted_statement {call : SocialCall} (hs : Statement db call db') (h : Counted db left) :
    Counted db' (departures db db' left) := by
  cases hs with
  | read => exact h.same rfl
  | @request a b hreq =>
    have hfind : ∀ k, (withRequest a b db).friendships.find k =
        (db.friendships.find k).or (if key (requested a b) = k then some (requested a b) else none) :=
      fun k => Table.find_insert db.friendships (requested a b) k
    refine h.departures (fun k f hnone hsome => ?_) fun k f f' hf hf' hp => ?_
    · rw [hfind, hnone, Option.none_or, Option.ite_none_right_eq_some] at hsome
      rw [← Option.some.inj hsome.2]
      rfl
    · rw [hfind, hf, Option.some_or] at hf'
      rw [Option.some.inj hf']
      exact hp
  | @settle a b accept f0 hfind =>
    have hupdate : ∀ k, (withStatus a b (decided accept) db).friendships.find k =
        if (a, b) = k then (db.friendships.find k).map (fun f => { f with status := decided accept }) else db.friendships.find k :=
      fun k => Table.find_update db.friendships (a, b) k (fun f => { f with status := decided accept }) fun _ => rfl
    refine h.departures (fun k f hnone hsome => ?_) fun k f f' hf hf' hp => ?_
    · rw [hupdate, hnone] at hsome
      split at hsome <;> cases hsome
    · rw [hupdate, hf] at hf'
      split at hf'
      · -- an answer is never pending
        obtain rfl := Option.some.inj hf'
        cases accept <;> cases hp
      · rw [Option.some.inj hf']
        exact hp
  | sever a b =>
    have hdelete : ∀ k, (unfriended a b db).friendships.find k = (db.friendships.find k).filter fun f => !between a b f :=
      fun k => Table.find_deleteWhere db.friendships (between a b) k
    refine h.departures (fun k f hnone hsome => ?_) fun k f f' hf hf' hp => ?_
    · rw [hdelete, hnone] at hsome
      cases hsome
    · rw [hdelete, hf, Option.filter_eq_some_iff] at hf'
      rw [Option.some.inj hf'.1]
      exact hp
  | block => exact h.same rfl
  | unblock => exact h.same rfl

end Counted

/-! ## Runs -/

/-- The calls, and how often each row has left pending. -/
structure Watched (I : Type) where
  system : SocialSystem I
  left : UserId × UserId → Nat

section Runs

variable {I : Type} [DecidableEq I]

def Watched.start (db : Db) (requests : I → SocialRequest) : Watched I :=
  { system := SocialSystem.start db requests, left := fun _ => 0 }

def watch (s : Watched I) (e : Event I Db) : Watched I :=
  { system := socialStep s.system e, left := departures s.system.store (socialStep s.system e).store s.left }

omit [DecidableEq I] in
/-- What is to hold in every state. -/
structure Lawful (s : Watched I) : Prop where
  onePerPair : OnePerPair s.system.store
  severed : Severed s.system.store
  once : ∀ k, s.left k ≤ 1

/-- A statement that brings a friendship and a block together is not made. -/
def Clear (s : Watched I) : Event I Db → Prop
  | .turn i => (s.system.calls i).clear s.system.store = true
  | .outside _ => True

/-- What every run keeps. -/
structure Sound (s : Watched I) : Prop where
  onePerPair : OnePerPair s.system.store
  counted : Counted s.system.store s.left

theorem sound_watch (s : Watched I) (e : Event I Db) (h : Sound s) : Sound (watch s e) := by
  cases e with
  | turn i =>
    have hs := statement_advance (s.system.calls i) s.system.store
    exact ⟨onePerPair_statement hs h.onePerPair, counted_statement hs h.counted⟩
  | outside new => exact ⟨h.onePerPair, h.counted.same rfl⟩

theorem lawful_watch (s : Watched I) (e : Event I Db) (hs : Sound s) (h : Lawful s) : Lawful (watch s e) ↔ Clear s e := by
  have hsound := sound_watch s e hs
  have hlaw : Lawful (watch s e) ↔ Severed (watch s e).system.store :=
    ⟨fun hl => hl.severed, fun hsev => ⟨hsound.onePerPair, hsev, hsound.counted.le_one⟩⟩
  rw [hlaw]
  cases e with
  | turn i => exact severed_statement (statement_advance (s.system.calls i) s.system.store) h.severed
  | outside new => exact iff_of_true h.severed trivial

/-- In every interleaving: there is at most one row for an unordered pair, no friendship and no request between two users
while a block stands between them, and no row leaves pending twice, exactly if every request that is inserted and every
acceptance that is written finds no block, and every block that is inserted finds neither friendship nor request. The
first and the last hold anyway. -/
theorem lawful_iff (db : Db) (requests : I → SocialRequest) (es : List (Event I Db)) :
    (Always watch Lawful (Watched.start db requests) es ↔ Along watch Clear (Watched.start db requests) es) ∧
    Always watch (fun s => OnePerPair s.system.store ∧ ∀ k, s.left k ≤ 1) (Watched.start db requests) es := by
  have hsound : Sound (Watched.start db requests) := ⟨fun f hf => (by cases hf), fun k => rfl⟩
  refine ⟨always_iff_along sound_watch lawful_watch hsound ?_, ?_⟩
  · exact ⟨hsound.onePerPair, fun f hf => (by cases hf), hsound.counted.le_one⟩
  · exact (always_of_step sound_watch hsound).mono fun s hs => ⟨hs.onePerPair, hs.counted.le_one⟩

end Runs

/-! ### A request that crosses a block -/

/-- `ana` asks `ben` to be her friend, and `ben` blocks her. -/
def crossing : Bool → SocialRequest
  | false => .requestFriend ⟨2⟩ ⟨3⟩
  | true => .block ⟨3⟩ ⟨2⟩

/-- The request has asked about blocks before the block comes, and inserts its row when it has come. -/
def crossed : List (Event Bool Db) := [.turn false, .turn false, .turn true, .turn true, .turn false]

def anaAndBen : Db :=
  { Db.empty 0 with
    users := (Table.empty.insert { id := ⟨2⟩, handle := "ana", email := "ana@genzh.test", isActive := true }).insert
      { id := ⟨3⟩, handle := "ben", email := "ben@genzh.test", isActive := true } }

/-- The request is pending, and the block stands. -/
theorem request_under_block :
    (run watch (Watched.start anaAndBen crossing) crossed).system.store.friendships.rows = [requested ⟨2⟩ ⟨3⟩] ∧
    blockedEitherWay (run watch (Watched.start anaAndBen crossing) crossed).system.store ⟨2⟩ ⟨3⟩ = true ∧
    ¬ Always watch Lawful (Watched.start anaAndBen crossing) crossed := by
  have hrows : (run watch (Watched.start anaAndBen crossing) crossed).system.store.friendships.rows = [requested ⟨2⟩ ⟨3⟩] := by
    decide +kernel
  have hblocked : blockedEitherWay (run watch (Watched.start anaAndBen crossing) crossed).system.store ⟨2⟩ ⟨3⟩ = true := by
    decide +kernel
  refine ⟨hrows, hblocked, fun h => ?_⟩
  have := h.last.severed (requested ⟨2⟩ ⟨3⟩) (by rw [hrows]; exact List.mem_singleton_self _) rfl
  exact absurd (hblocked.symm.trans this) (by decide)

end Genzh.Social
