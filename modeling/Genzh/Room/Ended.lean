/-
The end of a room. Nothing that reads a room asks for its status: joining, posting and joining the call
check access and the shape of the request, and an update writes any status over any other. What these
calls do check is said in closed form (`joinable`, `postable`, `callable`), and the end of a room holds
in exactly the runs where one of these checks refuses every such request for an ended room.
-/
import Genzh.Room.Inversion
import Genzh.Room.Visibility

namespace Genzh.Room

open Genzh.Lib Genzh.Domain Genzh.Infrastructure Genzh.Community Genzh.Social Genzh.Messaging Genzh.Admin

/-- Is there an anonymous identity for the user in the room, or can one be minted? -/
def identifiable (db : Db) (r : RoomId) (u : UserId) : Bool :=
  (db.roomAnonymousIdentities.find (r, u)).isSome ||
    ((db.roomAnonymousIdentities.rows.all fun i => i.roomId ≠ r || i.aliasName ≠ (generateAnonymousIdentity r u).1) &&
      (db.roomExists r && db.userExists u))

/-- What joining a room takes. -/
def joinable (db : Db) (r : RoomId) (u : UserId) : Bool :=
  match visibleAccess db r u with
  | .ok a => seatable db r u && (!a.room.isAnonymous || identifiable db r u)
  | .error _ => false

/-- What posting into a room takes: a check on the caller, then on the text, then on the flood guard's verdict
and on the message replied to, and rows for the new one to refer to. -/
def postable (db : Db) (id : MessageId) (r : RoomId) (u : UserId) (content : String) (verdict : Option FloodVerdict)
    (replyTo : Option MessageId) : Bool :=
  match visibleAccess db r u, validateMessageContent content with
  | .ok a, .ok content =>
    a.permissions.allows .sendMessage && (checkContent content).isOk && (guard verdict).isOk &&
      (checkReply db r replyTo).isOk &&
      (!db.messages.contains id && (db.roomExists r && db.userExists u && replyTo.all db.messages.contains))
  | _, _ => false

/-- What joining the call of a room takes. -/
def callable (db : Db) (r : RoomId) (u : UserId) : Bool :=
  match visibleAccess db r u with
  | .ok a => a.room.roomType.isMedia || a.room.isDirect
  | .error _ => false

/-- A room that has ended stays so while it exists, and is not joined, posted into or called. -/
structure EndIsFinal (db : Db) (req : Request) : Prop where
  stays : ∀ r row', hasEnded db r = true → (step db req).room r = some row' → row'.status = .ended
  noJoin : ∀ r u, req = .join r u → hasEnded db r = true → succeeds db req = false
  noPost : ∀ id r u content isAnonymous verdict replyTo, req = .post id r u content isAnonymous verdict replyTo →
    hasEnded db r = true → succeeds db req = false
  noCall : ∀ config r u name, req = .mediaJoin config r u name → hasEnded db r = true → succeeds db req = false

/-- What a request that names an ended room must be for the law to hold: an update that leaves the status, or a
join, a post or a call that one of the other checks refuses. -/
def RefusesEnded (db : Db) : Request → Prop
  | .update r u input =>
    hasEnded db r = true → (acceptedUpdate db r u input).isSome = true → ∀ status, input.status = some status → status = .ended
  | .join r u => hasEnded db r = true → joinable db r u = false
  | .post id r u content _ verdict replyTo =>
    hasEnded db r = true → postable db id r u content verdict replyTo = false
  | .mediaJoin _ r u _ => hasEnded db r = true → callable db r u = false
  | _ => True

/-! ## What the calls check -/

theorem isOk_getOrCreateAnonymousIdentity (r : RoomId) (u : UserId) (db : Db) :
    ((getOrCreateAnonymousIdentity r u).exec db).1.isOk = identifiable db r u := by
  unfold getOrCreateAnonymousIdentity identifiable
  rw [Prog.exec_read_bind]
  rcases db.roomAnonymousIdentities.find (r, u) with _ | identity
  · rcases hg : generateAnonymousIdentity r u with ⟨aliasName, avatarSeed, accentColor⟩
    simp only [SqlM.isOk_check_bind, Option.isSome_none, Bool.false_or]
    rw [← Bool.and_assoc]
    exact Bool.and_true _
  · rfl

theorem identifiable_seated (r : RoomId) (u : UserId) (role : RoomParticipantRole) (db : Db) :
    identifiable (seated r u role db) r u = identifiable db r u := by
  have h : (seated r u role db).roomAnonymousIdentities = db.roomAnonymousIdentities := by
    unfold seated
    split <;> rfl
  unfold identifiable
  rw [h, roomExists_seated, userExists_seated]

theorem succeeds_join (db : Db) (r : RoomId) (u : UserId) : succeeds db (.join r u) = joinable db r u := by
  unfold succeeds handle
  rw [(exec_void _ _).2]
  unfold join joinable
  rw [Prog.exec_query_bind]
  rcases visibleAccess db r u with e | a
  · rfl
  · simp only
    rw [Prog.exec_bind, exec_joinRoom]
    by_cases hs : seatable db r u
    · rw [if_pos hs, hs, Bool.true_and]
      simp only
      rw [← identifiable_seated r u (if a.room.ownerId = some u then .owner else .participant) db,
        ← isOk_getOrCreateAnonymousIdentity]
      generalize seated r u _ db = db'
      unfold joinIdentity
      by_cases ha : a.room.isAnonymous
      · rw [if_pos ha, ha]
        simp only [Prog.exec_bind]
        rcases (getOrCreateAnonymousIdentity r u).exec db' with ⟨_ | identity, db''⟩ <;> rfl
      · rw [if_neg ha, Bool.eq_false_iff.2 ha]
        rfl
    · rw [if_neg hs, Bool.eq_false_iff.2 hs]
      rfl

theorem succeeds_mediaJoin (db : Db) (config : MediaConfig) (r : RoomId) (u : UserId) (name : String) :
    succeeds db (.mediaJoin config r u name) = callable db r u := by
  unfold succeeds handle
  rw [(exec_void _ _).2]
  unfold mediaJoin callable
  rw [Prog.exec_query_bind]
  rcases hv : visibleAccess db r u with e | a
  · rfl
  · obtain ⟨-, hview, -⟩ := visibleAccess_ok.1 hv
    simp only [Prog.exec_lift_bind, Room.requireMedia]
    by_cases hm : (a.room.roomType.isMedia || a.room.isDirect) = true
    · rw [if_pos hm, hm]
      simp only [liftDomain, Prog.exec_ensure_bind, hview, if_true]
      rfl
    · rw [if_neg hm, Bool.eq_false_iff.2 hm]
      rfl

theorem isOk_join (db : Db) (r : RoomId) (u : UserId) : ((join r u).exec db).1.isOk = joinable db r u := by
  rw [← succeeds_join]
  unfold succeeds handle
  rw [(exec_void _ _).2]

theorem isOk_mediaJoin (db : Db) (config : MediaConfig) (r : RoomId) (u : UserId) (name : String) :
    ((mediaJoin config r u name).exec db).1.isOk = callable db r u := by
  rw [← succeeds_mediaJoin db config r u name]
  unfold succeeds handle
  rw [(exec_void _ _).2]

theorem joinable_ok {db : Db} {r : RoomId} {u : UserId} (h : joinable db r u = true) :
    ∃ a, visibleAccess db r u = .ok a ∧ seatable db r u = true := by
  unfold joinable at h
  rcases hv : visibleAccess db r u with e | a
  · rw [hv] at h
    cases h
  · rw [hv] at h
    exact ⟨a, rfl, (Bool.and_eq_true_iff.1 h).1⟩

theorem core_joined {db : Db} {r : RoomId} {u : UserId} (h : joinable db r u = true) :
    core ((join r u).exec db).2 = core (seated r u (joinRole db r u) db) := by
  obtain ⟨a, hv, -⟩ := joinable_ok h
  rw [core_join, hv]
  rfl

/-- Who has joined a room sees it as before. -/
theorem visibleAccess_joined {db : Db} {r : RoomId} {u : UserId} (h : joinable db r u = true) :
    ∃ n, visibleAccess ((join r u).exec db).2 r u = (visibleAccess db r u).map (.counting n) := by
  obtain ⟨a, -, hs⟩ := joinable_ok h
  have hread : ∀ db, visibleAccess (core db) r u = visibleAccess db r u := fun _ => rfl
  have hseated : visibleAccess ((join r u).exec db).2 r u = visibleAccess (seated r u (joinRole db r u) db) r u := by
    rw [← hread ((join r u).exec db).2, core_joined h, hread]
  exact ⟨_, hseated.trans (visibleAccess_seated _ hs)⟩

theorem isOk_insertMessage (m : Message) (db : Db) :
    ((insertMessage m).exec db).1.isOk =
      (!db.messages.contains m.id &&
        (db.roomExists m.roomId && db.userExists m.authorId && m.replyToId.all db.messages.contains)) := by
  unfold insertMessage
  rw [SqlM.isOk_check_bind, SqlM.isOk_check_bind, ← Bool.and_assoc]
  exact Bool.and_true _

/-- The checks of a post one after the other: each of them lets it through. -/
theorem isOk_checkPost (db : Db) (r : RoomId) (u : UserId) (content : String) (verdict : Option FloodVerdict)
    (replyTo : Option MessageId) :
    (checkPost db r u content verdict replyTo).isOk =
      match visibleAccess db r u, validateMessageContent content with
      | .ok a, .ok text =>
        a.permissions.allows .sendMessage && (checkContent text).isOk && (guard verdict).isOk &&
          (checkReply db r replyTo).isOk
      | _, _ => false := by
  unfold checkPost
  rcases visibleAccess db r u with e | a
  · rfl
  · simp only [bind, Except.bind, RoomAccess.require]
    by_cases hs : a.permissions.allows .sendMessage
    · rw [if_pos hs]
      rcases validateMessageContent content with e | text
      · rfl
      · simp only [liftDomain, hs, Bool.true_and]
        rcases checkContent text with e | _
        · rfl
        · rcases guard verdict with e | _
          · rfl
          · rcases checkReply db r replyTo with e | _ <;> rfl
    · rw [if_neg hs]
      rcases validateMessageContent content with e | text
      · rfl
      · simp only [Bool.eq_false_iff.2 hs, Bool.false_and]
        rfl

theorem succeeds_post (db : Db) (id : MessageId) (r : RoomId) (u : UserId) (content : String) (isAnonymous : Bool)
    (verdict : Option FloodVerdict) (replyTo : Option MessageId) :
    succeeds db (.post id r u content isAnonymous verdict replyTo) = postable db id r u content verdict replyTo := by
  have hcheck := isOk_checkPost db r u content verdict replyTo
  unfold succeeds handle
  rw [(exec_void _ _).2]
  unfold post postable
  rw [Prog.exec_query_bind]
  rcases hc : checkPost db r u content verdict replyTo with e | text
  · rw [hc] at hcheck
    simp only
    split at hcheck
    · rw [← hcheck]
      rfl
    · rfl
  · rw [hc] at hcheck
    simp only [Prog.exec_read_bind, isOk_insertMessage]
    split at hcheck
    · rw [← hcheck]
      rfl
    · cases hcheck

/-! ## One step -/

/-- Of the steps only an update writes another status over that of a room that has ended. -/
theorem status_effect {db : Db} {req : Request} {r : RoomId} {row' : RoomRow} (hend : hasEnded db r = true)
    (h : (effect db req).room r = some row')
    (hupd : ∀ u input, req = .update r u input → (acceptedUpdate db r u input).isSome = true →
      ∀ status, input.status = some status → status = .ended) : row'.status = .ended := by
  obtain ⟨row, hrow, hst⟩ := (Option.any_eq_true _ _).1 hend
  have hst : row.status = .ended := of_decide_eq_true hst
  -- the row there is the only one an origin can speak of
  have hsame : ∀ {row₀ : RoomRow}, db.room r = some row₀ → row₀.status = .ended := by
    intro row₀ h₀
    rwa [Option.some.inj (h₀.symm.trans hrow)]
  cases row_effect h with
  | opened ho =>
    have hnone : db.room r = none := Table.contains_eq_false.1 ho.spec.fresh
    rw [hnone] at hrow
    cases hrow
  | channel _ _ _ hnew =>
    rw [hnew] at hrow
    cases hrow
  | @updated row₀ u input input' hold hreq ha hrow' =>
    subst hrow'
    obtain ⟨name, _, rfl, _⟩ := acceptedUpdate_some ha
    change input.status.getD row₀.status = .ended
    rcases hs : input.status with _ | status
    · exact hsame hold
    · exact hupd u input hreq (by rw [ha]; rfl) status hs
  | expired _ _ _ hrow' => rw [hrow']; rfl
  | reaped _ _ _ hrow' => rw [hrow']; rfl
  | closed _ _ hrow' => rw [hrow']
  | @counted row₀ hold _ _ hrow' =>
    subst hrow'
    change row₀.status = .ended
    exact hsame hold
  | kept hold => exact hsame hold

theorem refusesEnded_final {db : Db} {req : Request} (hk : RefusesEnded db req) : EndIsFinal db req where
  stays := by
    intro r row' hend h
    rw [room_step] at h
    refine status_effect hend h fun u input hreq hsome => ?_
    subst hreq
    exact hk hend hsome
  noJoin := by
    rintro r u rfl hend
    rw [succeeds_join]
    exact hk hend
  noPost := by
    rintro id r u content isAnonymous verdict replyTo rfl hend
    rw [succeeds_post]
    exact hk hend
  noCall := by
    rintro config r u name rfl hend
    rw [succeeds_mediaJoin]
    exact hk hend

theorem final_refusesEnded {db : Db} {req : Request} (h : EndIsFinal db req) : RefusesEnded db req := by
  cases req with
  | update r u input =>
    intro hend hsome status hs
    obtain ⟨input', ha⟩ := Option.isSome_iff_exists.1 hsome
    obtain ⟨name, row, rfl, hrow, -⟩ := acceptedUpdate_some ha
    have hst := h.stays r (updateRow db.now { input with name } row) hend (by
      rw [room_step]
      simp only [effect, ha]
      rw [room_withUpdate, if_pos rfl, hrow, Option.map_some])
    change input.status.getD row.status = .ended at hst
    rwa [hs] at hst
  | join r u =>
    intro hend
    rw [← succeeds_join]
    exact h.noJoin r u rfl hend
  | post id r u content isAnonymous verdict replyTo =>
    intro hend
    rw [← succeeds_post db id r u content isAnonymous]
    exact h.noPost id r u content isAnonymous verdict replyTo rfl hend
  | mediaJoin config r u name =>
    intro hend
    rw [← succeeds_mediaJoin db config r u name]
    exact h.noCall config r u name rfl hend
  | _ => trivial

/-! ## Runs -/

/-- Over every run: the end of every room is final exactly when no update writes another status over it and every
join, post and call that names an ended room is refused for another reason than its end. -/
theorem end_is_final_iff (now : Timestamp) (reqs : List Request) :
    Along step EndIsFinal (Db.empty now) reqs ↔ Along step RefusesEnded (Db.empty now) reqs :=
  along_congr (J := fun _ => True) (fun _ _ _ => trivial)
    (fun _ _ _ => ⟨final_refusesEnded, refusesEnded_final⟩) trivial

/-- A voice room of one minute, the expiry job two minutes later, and then somebody who joins the room, writes
in it and joins its call, before its owner sets it active again. -/
def lifeAfterTheEnd : List Request :=
  [.register (account ⟨1⟩ "ana"), .register (account ⟨2⟩ "ben"),
    .create ⟨10⟩ none ⟨1⟩ { name := "late", roomType := .voice, durationMinutes := some 1 }, .clock 120000000, .expire]

/-- The room has ended, and is joined, posted into, called and set active again. -/
theorem ended_room_lives_on :
    ¬ Along step EndIsFinal (Db.empty 0) (lifeAfterTheEnd ++ [.join ⟨10⟩ ⟨2⟩]) ∧
      hasEnded (run step (Db.empty 0) lifeAfterTheEnd) ⟨10⟩ = true ∧
      succeeds (run step (Db.empty 0) lifeAfterTheEnd) (.join ⟨10⟩ ⟨2⟩) = true ∧
      succeeds (run step (Db.empty 0) lifeAfterTheEnd) (.post ⟨20⟩ ⟨10⟩ ⟨2⟩ "hi" false none none) = true ∧
      succeeds (run step (Db.empty 0) lifeAfterTheEnd) (.mediaJoin ⟨"key", "wss://media", 600⟩ ⟨10⟩ ⟨2⟩ "Ben") = true ∧
      hasEnded (run step (Db.empty 0) (lifeAfterTheEnd ++ [.update ⟨10⟩ ⟨1⟩ { status := some .active }])) ⟨10⟩ = false := by
  have hend : hasEnded (run step (Db.empty 0) lifeAfterTheEnd) ⟨10⟩ = true := by decide +kernel
  have hjoin : succeeds (run step (Db.empty 0) lifeAfterTheEnd) (.join ⟨10⟩ ⟨2⟩) = true := by decide +kernel
  refine ⟨fun h => ?_, hend, hjoin, by decide +kernel, by decide +kernel, by decide +kernel⟩
  have := (along_append.1 h).2.1.noJoin ⟨10⟩ ⟨2⟩ rfl hend
  rw [this] at hjoin
  cases hjoin

end Genzh.Room
