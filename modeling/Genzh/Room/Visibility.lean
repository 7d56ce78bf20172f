/-
Who gets into a direct conversation. Access to a standalone room is granted to anybody who knows it, so
in a conversation only the check on blocks stands in the way, and that check asks about one other
participant: the one who joined first.
-/
import Genzh.Room.Observe
import Genzh.Api.Session

namespace Genzh.Room

open Genzh.Lib Genzh.Domain Genzh.Infrastructure Genzh.Community Genzh.Social Genzh.Messaging

/-- Is the room a direct conversation? -/
def conversation (db : Db) (d : RoomId) : Bool := (db.room d).any isConversation

/-- Is the earliest of the other participants blocked from the user? -/
def barred (db : Db) (d : RoomId) (u : UserId) : Bool := (directPeer db d u).any fun peer => blockedEitherWay db u peer

/-! ## The peer of a conversation -/

theorem directPeer_some {db : Db} {d : RoomId} {u peer : UserId} (h : directPeer db d u = some peer) :
    peer ≠ u ∧ db.participates d peer = true := by
  unfold directPeer at h
  obtain ⟨p, hp, rfl⟩ := Option.map_eq_some_iff.1 h
  obtain ⟨hm, hp⟩ := Table.selectFirst_mem hp
  simp only [ne_eq, decide_not, Bool.and_eq_true, decide_eq_true_eq, Bool.not_eq_true', decide_eq_false_iff_not] at hp
  exact ⟨hp.2, Db.participates_iff.2 ⟨p, hm, hp.1, rfl⟩⟩

/-! ## Visible access once seated -/

section Seated

variable {db : Db} {r : RoomId} {u : UserId}

theorem directPeer_seated (r : RoomId) (u : UserId) (role : RoomParticipantRole) (db : Db) :
    directPeer (seated r u role db) r u = directPeer db r u := by
  unfold directPeer seated
  split
  · unfold Table.selectFirst
    change Option.map _ (Table.firstBy _ ((db.roomParticipants.upsert _ _ _).select _)) = _
    rw [Table.select_upsert_of_not]
    rintro p hp
    obtain ⟨-, hu⟩ := Prod.mk.inj hp
    simp [hu]
  · rfl

/-- The same standing, in the room with another count of participants. -/
def RoomAccess.counting (n : Nat) (a : RoomAccess) : RoomAccess := { a with room := { a.room with currentParticipants := n } }

theorem access_of_row {row : RoomRow} (h : db.room r = some row) :
    access db r u = row.communityId.elim
      (.ok { room := row.toRoom, member := none, permissions := standalonePermissions row.toRoom u })
      fun c => (memberContext db c u).map fun m =>
        { room := row.toRoom, member := some m, permissions := applyRoomOverrides m.permissions m.roleIds (roomOverrides db r) } := by
  unfold access
  rw [h]
  simp only
  rcases row.communityId with _ | c
  · rfl
  · simp only [Option.elim_some]
    rcases memberContext db c u with e | m <;> rfl

/-- Being seated changes the count that goes with an access, and nothing else of it. -/
theorem access_seated (role : RoomParticipantRole) (h : seatable db r u = true) :
    access (seated r u role db) r u = (access db r u).map (.counting ((seated r u role db).participantCount r)) := by
  have hroom := room_seated db r r u role
  rw [if_pos ⟨h, rfl⟩] at hroom
  rcases hrow : db.room r with _ | row
  · rw [hrow] at hroom
    unfold access
    rw [hroom, hrow]
    rfl
  · rw [hrow] at hroom
    rw [access_of_row hroom, access_of_row hrow]
    change row.communityId.elim _ _ = _
    rcases row.communityId with _ | c
    · rfl
    · have hmember : memberContext (seated r u role db) c u = memberContext db c u := by
        unfold seated
        rw [if_pos h]
        rfl
      have hover : roomOverrides (seated r u role db) r = roomOverrides db r := by
        unfold seated
        rw [if_pos h]
        rfl
      simp only [Option.elim_some, hmember, hover]
      rcases memberContext db c u with e | m <;> rfl

theorem visibleAccess_seated (role : RoomParticipantRole) (h : seatable db r u = true) :
    visibleAccess (seated r u role db) r u =
      (visibleAccess db r u).map (.counting ((seated r u role db).participantCount r)) := by
  have hpeer : ∀ room, ensurePeer (seated r u role db) room r u = ensurePeer db room r u := by
    intro room
    unfold ensurePeer ensureCanReach blockedEitherWay
    rw [directPeer_seated, blocks_seated]
  unfold visibleAccess
  rw [access_seated role h]
  rcases access db r u with e | a
  · rfl
  · simp only [Except.map, bind, Except.bind, hpeer]
    have hrequire : (a.counting ((seated r u role db).participantCount r)).require .viewRoom = a.require .viewRoom := rfl
    have hsame : ensurePeer db (a.counting ((seated r u role db).participantCount r)).room r u = ensurePeer db a.room r u := rfl
    rw [hrequire, hsame]
    rcases a.require .viewRoom with e | _
    · rfl
    · simp only
      rcases ensurePeer db a.room r u with e | _ <;> rfl

end Seated

/-! ## Visible access to a conversation -/

theorem standalone_allows_view (room : Room) (u : UserId) : (standalonePermissions room u).allows .viewRoom = true := by
  unfold standalonePermissions
  split <;> decide

/-- A conversation is visible to exactly those whom its earliest other participant is not blocked from. -/
theorem visibleAccess_conversation {db : Db} {d : RoomId} (hd : conversation db d = true) (u : UserId) :
    (visibleAccess db d u).isOk = !barred db d u := by
  unfold conversation at hd
  rcases hr : db.room d with _ | row
  · rw [hr] at hd
    cases hd
  · rw [hr, Option.any_some] at hd
    unfold isConversation at hd
    rw [Bool.and_eq_true, decide_eq_true_eq, Option.isNone_iff_eq_none] at hd
    have hdirect : row.toRoom.isDirect = true := decide_eq_true hd.1
    have hacc : access db d u = .ok { room := row.toRoom, member := none, permissions := standalonePermissions row.toRoom u } := by
      unfold access
      rw [hr]
      simp only [hd.2]
    unfold visibleAccess barred
    rw [hacc]
    simp only [bind, Except.bind, RoomAccess.require, standalone_allows_view, if_true, ensurePeer, hdirect]
    rcases hp : directPeer db d u with _ | peer
    · rfl
    · obtain ⟨hne, -⟩ := directPeer_some hp
      simp only [Option.any_some, ensureCanReach, if_neg (Ne.symm hne)]
      by_cases hb : blockedEitherWay db u peer <;> simp [hb] <;> rfl

/-! ## What visible access is asked for -/

theorem isOk_of_query_bind {α β : Type} {q : Db → Except ServiceError α} {f : α → SqlM β} {db : Db}
    (h : ((Prog.query q >>= f).exec db).1.isOk = true) : (q db).isOk = true := by
  rw [Prog.exec_query_bind] at h
  rcases hq : q db with e | a
  · rw [hq] at h
    cases h
  · rfl

theorem visible_of_history {db : Db} {d : RoomId} {u : UserId} {before : Option Timestamp} {beforeId : Option MessageId}
    {limit : Option Int} (h : succeeds db (.history d u before beforeId limit) = true) :
    (visibleAccess db d u).isOk = true := by
  unfold succeeds handle at h
  rw [(exec_void _ _).2] at h
  exact isOk_of_query_bind h

theorem visible_of_mediaJoin {db : Db} {config : MediaConfig} {d : RoomId} {u : UserId} {name : String}
    (h : succeeds db (.mediaJoin config d u name) = true) : (visibleAccess db d u).isOk = true := by
  unfold succeeds handle at h
  rw [(exec_void _ _).2] at h
  exact isOk_of_query_bind h

theorem visible_of_checkPost {db : Db} {d : RoomId} {u : UserId} {content : String} {verdict : Option FloodVerdict}
    {replyTo : Option MessageId} (h : (checkPost db d u content verdict replyTo).isOk = true) :
    (visibleAccess db d u).isOk = true := by
  rcases hv : visibleAccess db d u with e | a
  · unfold checkPost at h
    rw [hv] at h
    cases h
  · rfl

theorem visible_of_post {db : Db} {id : MessageId} {d : RoomId} {u : UserId} {content : String} {isAnonymous : Bool}
    {verdict : Option FloodVerdict} {replyTo : Option MessageId}
    (h : succeeds db (.post id d u content isAnonymous verdict replyTo) = true) :
    (visibleAccess db d u).isOk = true := by
  unfold succeeds handle at h
  rw [(exec_void _ _).2] at h
  exact visible_of_checkPost (isOk_of_query_bind h)

/-! ## Strangers -/

/-- Every way into a conversation is its participants' only. -/
structure ForParticipants (db : Db) (d : RoomId) (u : UserId) : Prop where
  visible : (visibleAccess db d u).isOk = true → db.participates d u = true
  history : ∀ before beforeId limit, succeeds db (.history d u before beforeId limit) = true →
    db.participates d u = true
  post : ∀ id content isAnonymous verdict replyTo,
    succeeds db (.post id d u content isAnonymous verdict replyTo) = true → db.participates d u = true
  focus : ∀ cs : List Api.Command, (cs.foldl (Api.command db) (Api.Session.new u)).focusedRoom = some d → db.participates d u = true
  mediaJoin : ∀ config name, succeeds db (.mediaJoin config d u name) = true → db.participates d u = true

/-- In every state a run reaches, a conversation is closed to a user who is not in it exactly when its
earliest participant is blocked from them. -/
theorem forParticipants_iff (now : Timestamp) (reqs : List Request) (d : RoomId) (u : UserId)
    (hd : conversation (run step (Db.empty now) reqs) d = true) :
    ForParticipants (run step (Db.empty now) reqs) d u ↔
      (run step (Db.empty now) reqs).participates d u = true ∨ barred (run step (Db.empty now) reqs) d u = true := by
  generalize run step (Db.empty now) reqs = db at hd ⊢
  have hv := visibleAccess_conversation hd u
  constructor
  · intro h
    by_cases hb : barred db d u
    · exact .inr hb
    · exact .inl (h.visible (by rw [hv]; simp [hb]))
  · intro h
    have hpart : (visibleAccess db d u).isOk = true → db.participates d u = true := by
      intro hok
      rcases h with h | h
      · exact h
      · rw [hv, h] at hok
        cases hok
    exact ⟨hpart, fun _ _ _ h => hpart (visible_of_history h), fun _ _ _ _ _ h => hpart (visible_of_post h),
      fun _ h => hpart (Api.focused_visible h), fun _ _ h => hpart (visible_of_mediaJoin h)⟩

/-- Two people open a conversation; a third has an account. -/
def conversationOfTwo : List Request :=
  [.register (account ⟨1⟩ "ana"), .register (account ⟨2⟩ "ben"), .register (account ⟨3⟩ "cyd"),
    .openDirect ⟨10⟩ ⟨1⟩ ⟨2⟩ "Ben" "ben"]

/-- Once the third person is blocked by the one who joined first, the conversation is closed to them. -/
theorem forParticipants_once_blocked :
    ForParticipants (run step (Db.empty 0) (conversationOfTwo ++ [.block ⟨1⟩ ⟨3⟩])) ⟨10⟩ ⟨3⟩ := by
  have hd : conversation (run step (Db.empty 0) (conversationOfTwo ++ [.block ⟨1⟩ ⟨3⟩])) ⟨10⟩ = true := by decide +kernel
  have hb : barred (run step (Db.empty 0) (conversationOfTwo ++ [.block ⟨1⟩ ⟨3⟩])) ⟨10⟩ ⟨3⟩ = true := by decide +kernel
  exact (forParticipants_iff _ _ _ _ hd).2 (.inr hb)

/-- The third person is no participant, and sees the conversation, reads it, posts into it, has it in
front of them and joins its call. -/
theorem stranger_in_conversation :
    conversation (run step (Db.empty 0) conversationOfTwo) ⟨10⟩ = true ∧
      ¬ ForParticipants (run step (Db.empty 0) conversationOfTwo) ⟨10⟩ ⟨3⟩ ∧
      (visibleAccess (run step (Db.empty 0) conversationOfTwo) ⟨10⟩ ⟨3⟩).isOk = true ∧
      succeeds (run step (Db.empty 0) conversationOfTwo) (.history ⟨10⟩ ⟨3⟩ none none none) = true ∧
      succeeds (run step (Db.empty 0) conversationOfTwo) (.post ⟨20⟩ ⟨10⟩ ⟨3⟩ "hi" false none none) = true ∧
      (([.subscribe ⟨10⟩, .focus (some ⟨10⟩)] : List Api.Command).foldl (Api.command (run step (Db.empty 0) conversationOfTwo))
        (Api.Session.new ⟨3⟩)).focusedRoom = some ⟨10⟩ ∧
      succeeds (run step (Db.empty 0) conversationOfTwo) (.mediaJoin ⟨"key", "wss://media", 600⟩ ⟨10⟩ ⟨3⟩ "Cyd") = true := by
  have hvisible : (visibleAccess (run step (Db.empty 0) conversationOfTwo) ⟨10⟩ ⟨3⟩).isOk = true := by decide +kernel
  have hout : (run step (Db.empty 0) conversationOfTwo).participates ⟨10⟩ ⟨3⟩ = false := by decide +kernel
  refine ⟨by decide +kernel, fun h => ?_, hvisible, by decide +kernel, by decide +kernel, by decide +kernel,
    by decide +kernel⟩
  have := h.visible hvisible
  rw [hout] at this
  cases this

end Genzh.Room
