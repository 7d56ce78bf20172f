/-
Who hears about a room. A connection filters the events it is sent by the rooms it follows, and nothing else does: the
check that its user may see a room is made when the room is subscribed to. What a connection follows changes by four
moves only, `Move`: it opens or closes, it takes an identity on, it is granted a room, it drops one. The two laws are
about these moves.

`delivery_granted`: an event of a room only ever reaches a user who was granted that room on that connection.
`delivery_cut_off`: a user who could see a room once and cannot any more hears nothing of it. Neither holds of every
run, and each theorem says of exactly which runs it does.
-/
import Genzh.Api.Protocol
import Genzh.Api.Suspension

namespace Genzh.Api

open Genzh.Lib Genzh.Domain Genzh.Infrastructure Genzh.Auth Genzh.Room Genzh.Messaging

/-! ## What a connection follows -/

/-- A connection as the events see it, with what was granted over it since it opened: which rooms, and to whom. -/
structure Following where
  user : Option UserId
  rooms : List RoomId
  granted : List (RoomId × UserId)
  deriving DecidableEq, Repr

/-- What may happen to it. -/
inductive Move where
  | opens (user : Option UserId)
  | identifies (user : UserId)
  | follows (roomId : RoomId) (user : UserId)
  | drops (roomId : RoomId)
  deriving DecidableEq, Repr

def Move.apply : Move → Following → Following
  | opens user, _ => { user, rooms := [], granted := [] }
  | identifies user, f => { f with user := some user }
  | follows roomId user, f =>
    { f with rooms := roomId :: f.rooms.filter (· ≠ roomId), granted := (roomId, user) :: f.granted }
  | drops roomId, f => { f with rooms := f.rooms.filter (· ≠ roomId) }

/-- At most one connection moves at a time. -/
def moved (m : Option (Nat × Move)) (f : Nat → Following) : Nat → Following :=
  m.elim f fun p => Function.update f p.1 (p.2.apply (f p.1))

section Moved

variable {f : Nat → Following} {i j : Nat} {m : Move}

@[simp] theorem moved_self : moved (some (i, m)) f i = m.apply (f i) := Function.update_self ..

theorem moved_of_ne (h : j ≠ i) : moved (some (i, m)) f j = f j := Function.update_of_ne h ..

/-- A law about every connection, after one of them moved. -/
theorem forall_moved {P : Following → Prop} (h : ∀ j, P (f j)) :
    (∀ j, P (moved (some (i, m)) f j)) ↔ P (m.apply (f i)) := by
  constructor
  · intro hall
    rw [← moved_self]
    exact hall i
  · intro hi j
    by_cases hj : j = i
    · rw [hj, moved_self]
      exact hi
    · rw [moved_of_ne hj]
      exact h j

end Moved

namespace Following

/-- A connection nobody has authenticated follows nothing. -/
def Owned (f : Following) : Prop := f.user = none → f.rooms = []

/-- Every room it follows was granted to the user it has now. -/
def Granted (f : Following) : Prop := ∀ r ∈ f.rooms, ∃ u, f.user = some u ∧ (r, u) ∈ f.granted

/-- It follows none of the rooms in `lost` with its user. -/
def CutOff (lost : RoomId → UserId → Bool) (f : Following) : Prop := ∀ u, f.user = some u → ∀ r ∈ f.rooms, lost r u = false

variable {f : Following} {u : UserId} {r : RoomId} {lost : RoomId → UserId → Bool}

theorem owned_apply {m : Move} (h : f.Owned) (hfollows : ∀ r u, m = .follows r u → f.user = some u) : (m.apply f).Owned := by
  cases m with
  | opens user => exact fun _ => rfl
  | identifies user => exact fun hnone => nomatch hnone
  | follows r u =>
    intro hnone
    change f.user = none at hnone
    rw [hfollows r u rfl] at hnone
    cases hnone
  | drops r =>
    intro hnone
    change f.rooms.filter (· ≠ r) = []
    rw [h hnone, List.filter_nil]

theorem mem_follows {r' : RoomId} : r' ∈ ((Move.follows r u).apply f).rooms ↔ r' = r ∨ r' ∈ f.rooms := by
  change r' ∈ r :: f.rooms.filter (· ≠ r) ↔ _
  rw [List.mem_cons, List.mem_filter, decide_eq_true_eq]
  constructor
  · rintro (h | ⟨h, -⟩)
    · exact .inl h
    · exact .inr h
  · rintro (h | h)
    · exact .inl h
    · by_cases heq : r' = r
      · exact .inl heq
      · exact .inr ⟨h, heq⟩

theorem granted_identifies : ((Move.identifies u).apply f).Granted ↔ ∀ r ∈ f.rooms, (r, u) ∈ f.granted := by
  constructor
  · intro h r hr
    obtain ⟨v, hv, hg⟩ := h r hr
    obtain rfl := Option.some.inj hv
    exact hg
  · exact fun h r hr => ⟨u, rfl, h r hr⟩

theorem granted_follows (h : f.Granted) (hu : f.user = some u) : ((Move.follows r u).apply f).Granted := by
  intro r' hr'
  rcases mem_follows.1 hr' with rfl | hr'
  · exact ⟨u, hu, List.mem_cons_self⟩
  · obtain ⟨v, hv, hg⟩ := h r' hr'
    exact ⟨v, hv, List.mem_cons_of_mem _ hg⟩

theorem granted_drops (h : f.Granted) : ((Move.drops r).apply f).Granted :=
  fun r' hr' => h r' (List.mem_filter.1 hr').1

theorem cutOff_identifies : ((Move.identifies u).apply f).CutOff lost ↔ ∀ r ∈ f.rooms, lost r u = false := by
  constructor
  · exact fun h => h u rfl
  · intro h v hv
    obtain rfl := Option.some.inj hv
    exact h

theorem cutOff_follows (h : f.CutOff lost) (hu : f.user = some u) (hr : lost r u = false) :
    ((Move.follows r u).apply f).CutOff lost := by
  intro v hv r' hr'
  obtain rfl := Option.some.inj (hu.symm.trans hv)
  rcases mem_follows.1 hr' with rfl | hr'
  · exact hr
  · exact h u hu r' hr'

theorem cutOff_drops (h : f.CutOff lost) : ((Move.drops r).apply f).CutOff lost :=
  fun u hu r' hr' => h u hu r' (List.mem_filter.1 hr').1

end Following

/-! ## What happens -/

/-- An event at the API, a call the services get elsewhere (the community services, the jobs), a typing signal, or a
connection that closes. -/
inductive Happening where
  | api (e : Event)
  | service (req : Room.Request)
  | typing (i : Nat) (roomId : RoomId)
  | close (i : Nat)

/-- Typing in a room the connection follows is reading it. -/
def socketTyping (roomId : RoomId) (s : Session) : Session :=
  if s.currentUser.isSome && s.isSubscribed roomId then s.attend (some roomId) else s

/-- The world it leaves. A connection that closed is read by nobody. -/
def happen (cfg : Config) (w : World) : Happening → World
  | .api e => step cfg w e
  | .service req => { w with db := Room.step w.db req }
  | .typing i roomId => setSocket i (socketTyping roomId (w.sockets i)) w
  | .close i => setSocket i Session.fresh w

/-- Whom a token names. -/
def tokenUser (cfg : Config) (db : Db) (token : AccessClaims) : Option UserId :=
  match cfg.auth.jwt.authenticate token db.now with
  | .ok caller => some caller.userId
  | .error _ => none

/-- May the user see the room now? -/
def sees (db : Db) (roomId : RoomId) (user : UserId) : Bool := (visibleAccess db roomId user).isOk

/-- The move a command makes. -/
def commandMove (db : Db) (s : Session) : Command → Option Move
  | .subscribe roomId =>
    match s.currentUser with
    | some user => if sees db roomId user then some (.follows roomId user) else none
    | none => none
  | .unsubscribe roomId => some (.drops roomId)
  | .focus _ => none

/-- The connection that moves, and how. -/
def move (cfg : Config) (w : World) : Happening → Option (Nat × Move)
  | .api (.socketOpen i token) => some (i, .opens (token.bind (tokenUser cfg w.db)))
  | .api (.socketAuth i token) => (tokenUser cfg w.db token).map fun user => (i, .identifies user)
  | .api (.socketCommand i c) => (commandMove w.db (w.sockets i) c).map fun m => (i, m)
  | .close i => some (i, .opens none)
  | _ => none

/-- The connections are what the moves made them. -/
def Follows (w : World) (f : Nat → Following) : Prop :=
  ∀ i, (w.sockets i).currentUser = (f i).user ∧ (w.sockets i).subscribedRooms = (f i).rooms

section Refinement

variable {cfg : Config} {w : World} {f : Nat → Following}

/-- A move of one connection. -/
theorem follows_set {i : Nat} {s : Session} {m : Move} {w' : World} (hw : w'.sockets = Function.update w.sockets i s)
    (h : Follows w f) (huser : s.currentUser = (m.apply (f i)).user) (hrooms : s.subscribedRooms = (m.apply (f i)).rooms) :
    Follows w' (moved (some (i, m)) f) := by
  intro j
  rw [hw]
  by_cases hj : j = i
  · rw [hj, Function.update_self, moved_self]
    exact ⟨huser, hrooms⟩
  · rw [Function.update_of_ne hj, moved_of_ne hj]
    exact h j

/-- Whatever leaves users and subscriptions alone is no move. -/
theorem follows_keep {i : Nat} {s : Session} {w' : World} (hw : w'.sockets = Function.update w.sockets i s)
    (h : Follows w f) (huser : s.currentUser = (w.sockets i).currentUser)
    (hrooms : s.subscribedRooms = (w.sockets i).subscribedRooms) : Follows w' f := by
  intro j
  rw [hw]
  by_cases hj : j = i
  · rw [hj, Function.update_self, huser, hrooms]
    exact h i
  · rw [Function.update_of_ne hj]
    exact h j

theorem follows_sockets {w' : World} (hw : w'.sockets = w.sockets) (h : Follows w f) : Follows w' f := by
  intro j
  rw [hw]
  exact h j

theorem attend_user (s : Session) (r : Option RoomId) : (s.attend r).currentUser = s.currentUser := by
  unfold Session.attend
  split
  · rfl
  · exact rfl

theorem attend_rooms (s : Session) (r : Option RoomId) : (s.attend r).subscribedRooms = s.subscribedRooms := by
  unfold Session.attend
  split <;> rfl

theorem subscribe_user (s : Session) (r : RoomId) : (s.subscribe r).currentUser = s.currentUser := by
  unfold Session.subscribe
  simp only
  split
  · exact attend_user _ _
  · rfl

theorem subscribe_rooms (s : Session) (r : RoomId) :
    (s.subscribe r).subscribedRooms = r :: s.subscribedRooms.filter (· ≠ r) := by
  unfold Session.subscribe
  simp only
  split
  · exact attend_rooms _ _
  · rfl

theorem sockets_onDb {E α : Type} (g : E → ApiError) (m : Prog Db E α) : Prog.Frames World.sockets (onDb g m) := by
  intro w
  rw [exec_onDb]

/-! ### The events -/

theorem exec_socketAuth (i : Nat) (token : AccessClaims) :
    ((socketAuth cfg i token).exec w).2 =
      (tokenUser cfg w.db token).elim w fun user => setSocket i ((w.sockets i).authenticate user) w := by
  unfold socketAuth tokenUser
  rw [Prog.exec_query_bind]
  rcases cfg.auth.jwt.authenticate token w.db.now with e | caller
  · rfl
  · rfl

theorem exec_socketCommand (i : Nat) (c : Command) :
    ((socketCommand i c).exec w).2 = setSocket i (command w.db (w.sockets i) c) w := by
  have hens : ∀ (b : Bool) (w : World), ((Prog.ensure b ignored : ApiM Unit).exec w).2 = w :=
    fun b => (Prog.Frames.ensure b ignored : Prog.Frames id (Prog.ensure b ignored : ApiM Unit))
  unfold socketCommand
  rw [Prog.exec_read_bind, Prog.exec_modify_bind, Prog.exec_ensure_bind]
  split
  · cases c with
    | subscribe r => simp only [Prog.exec_read_bind, hens]
    | unsubscribe r => rfl
    | focus r => rfl
  · rfl

theorem sockets_socketSend (i : Nat) (id : MessageId) (r : RoomId) (content : String) (isAnonymous : Option Bool)
    (verdict : Option FloodVerdict) :
    ((socketSend i id r content isAnonymous verdict).exec w).2.sockets = w.sockets ∨
    ((socketSend i id r content isAnonymous verdict).exec w).2.sockets =
      Function.update w.sockets i ((w.sockets i).attend (some r)) := by
  unfold socketSend
  rw [Prog.exec_read_bind]
  rcases (w.sockets i).currentUser with _ | user
  · exact .inl rfl
  · simp only
    rw [Prog.exec_ensure_bind]
    split
    · rw [Prog.exec_modify_bind, Prog.exec_read_bind]
      refine .inr (Prog.Frames.bind (sockets_onDb _ _) (fun _ => ?_) _)
      split
      · exact sockets_onDb _ _
      · exact Prog.Frames.pure _
    · exact .inl rfl

theorem sockets_requireAdmin (caller : UserId) : Prog.Frames World.sockets (requireAdmin caller) := by
  refine Prog.Frames.bind ?_ fun _ => Prog.Frames.ensure _ _
  exact (Prog.Frames.read _).bind fun _ => (Prog.Frames.ensure _ _).bind fun _ => Prog.Frames.pure _

theorem sockets_serveStaff (caller : UserId) (endpoint : StaffEndpoint) :
    Prog.Frames World.sockets (serveStaff caller endpoint) := by
  have hcall : ∀ {α β : Type} (m : Prog Db ServiceError α) {k : α → ApiM β}, (∀ x, Prog.Frames World.sockets (k x)) →
      Prog.Frames World.sockets (onDb .service m >>= k) := fun m _ hk => (sockets_onDb _ m).bind hk
  have hadmin := sockets_requireAdmin caller
  cases endpoint with
  | findUser target =>
    refine Prog.Frames.bind ?_ fun _ => hcall _ fun _ => Prog.Frames.pure _
    exact (Prog.Frames.read _).bind fun _ => (Prog.Frames.ensure _ _).bind fun _ => Prog.Frames.pure _
  | suspend target reason =>
    refine hadmin.bind fun _ => (Prog.Frames.ensure _ _).bind fun _ => ?_
    exact hcall _ fun _ => hcall _ fun _ => Prog.Frames.pure _
  | reinstate target => exact hadmin.bind fun _ => hcall _ fun _ => hcall _ fun _ => Prog.Frames.pure _
  | setPlatformRole target role => exact hadmin.bind fun _ => hcall _ fun _ => hcall _ fun _ => Prog.Frames.pure _
  | terminate r => exact hadmin.bind fun _ => hcall _ fun _ => sockets_onDb _ _

/-- Is the event said over a socket? -/
def overSocket : Event → Bool
  | .socketOpen .. | .socketAuth .. | .socketCommand .. | .socketSend .. => true
  | _ => false

/-- Whatever is not said over a socket leaves the sockets alone. -/
theorem sockets_step {e : Event} (h : overSocket e = false) : (step cfg w e).sockets = w.sockets := by
  have hcall : ∀ {E α : Type} (g : E → ApiError) (m : Prog Db E α),
      Prog.Frames World.sockets (onDb g m >>= fun _ => (pure () : ApiM Unit)) :=
    fun g m => (sockets_onDb g m).bind fun _ => Prog.Frames.pure _
  have hbearer : ∀ {token : AccessClaims} {k : CurrentUser → ApiM Unit}, (∀ caller, Prog.Frames World.sockets (k caller)) →
      Prog.Frames World.sockets (bearer cfg token >>= k) := fun hk => (Prog.Frames.query _).bind hk
  suffices hframes : Prog.Frames World.sockets (respond cfg e) from hframes w
  cases e with
  | request token endpoint => exact hbearer fun caller => sockets_onDb _ _
  | me token => exact hbearer fun caller => hcall _ _
  | mediaJoin token r => exact hbearer fun caller => (sockets_onDb _ _).bind fun _ => hcall _ _
  | staff token endpoint => exact hbearer fun caller => sockets_serveStaff _ _
  | register input draw => exact (Prog.Frames.ensure _ _).bind fun _ => hcall _ _
  | login input draw => exact hcall _ _
  | oauth input draw => exact hcall _ _
  | refresh refreshToken draw => exact hcall _ _
  | logout refreshToken => exact sockets_onDb _ _
  | socketOpen | socketAuth | socketCommand | socketSend => cases h
  | expire => exact sockets_onDb _ _
  | reap grace => exact sockets_onDb _ _
  | clock now => exact Prog.Frames.modify fun _ => rfl

/-! ### The moves -/

/-- A connection is fresh when it opens, and takes the identity of its token on if it brings one. -/
theorem follows_open (h : Follows w f) (i : Nat) (token : Option AccessClaims) :
    Follows (step cfg w (.socketOpen i token)) (moved (some (i, .opens (token.bind (tokenUser cfg w.db)))) f) := by
  unfold step respond
  rw [Prog.exec_modify_bind]
  cases token with
  | none => exact follows_set rfl h rfl rfl
  | some token =>
    simp only
    rw [exec_socketAuth]
    change Follows ((tokenUser cfg w.db token).elim _ _) (moved (some (i, .opens (tokenUser cfg w.db token))) f)
    rcases tokenUser cfg w.db token with _ | user
    · exact follows_set rfl h rfl rfl
    · refine follows_set (s := Session.fresh.authenticate user) ?_ h rfl rfl
      change Function.update (Function.update w.sockets i _) i _ = _
      rw [Function.update_idem]
      unfold setSocket
      simp only [Function.update_self]

theorem follows_auth (h : Follows w f) (i : Nat) (token : AccessClaims) :
    Follows (step cfg w (.socketAuth i token)) (moved ((tokenUser cfg w.db token).map fun user => (i, .identifies user)) f) := by
  change Follows ((socketAuth cfg i token).exec w).2 _
  rw [exec_socketAuth]
  rcases tokenUser cfg w.db token with _ | user
  · exact h
  · exact follows_set rfl h rfl (h i).2

theorem follows_command (h : Follows w f) (i : Nat) (c : Command) :
    Follows (step cfg w (.socketCommand i c)) (moved ((commandMove w.db (w.sockets i) c).map fun m => (i, m)) f) := by
  change Follows ((socketCommand i c).exec w).2 _
  rw [exec_socketCommand]
  cases c with
  | subscribe r =>
    unfold commandMove command sees
    rcases huser : (w.sockets i).currentUser with _ | user
    · exact follows_keep rfl h rfl rfl
    · simp only
      rcases visibleAccess w.db r user with e | a
      · exact follows_keep rfl h rfl rfl
      · refine follows_set rfl h ((subscribe_user _ _).trans (h i).1) ?_
        rw [subscribe_rooms, (h i).2]
        rfl
  | unsubscribe r =>
    refine follows_set rfl h ((attend_user _ _).trans (h i).1) ((attend_rooms _ _).trans ?_)
    change (w.sockets i).subscribedRooms.filter (· ≠ r) = (f i).rooms.filter (· ≠ r)
    rw [(h i).2]
  | focus r => exact follows_keep rfl h (attend_user _ _) (attend_rooms _ _)

/-- The sockets move as `move` says. -/
theorem follows_happen (h : Follows w f) (e : Happening) : Follows (happen cfg w e) (moved (move cfg w e) f) := by
  cases e with
  | api e =>
    cases e with
    | socketOpen i token => exact follows_open h i token
    | socketAuth i token => exact follows_auth h i token
    | socketCommand i c => exact follows_command h i c
    | socketSend i id r content isAnonymous verdict =>
      change Follows ((socketSend i id r content isAnonymous verdict).exec w).2 f
      rcases sockets_socketSend i id r content isAnonymous verdict with hsame | hattends
      · exact follows_sockets hsame h
      · exact follows_keep hattends h (attend_user _ _) (attend_rooms _ _)
    | _ => exact follows_sockets (sockets_step rfl) h
  | service req => exact h
  | typing i r =>
    refine follows_keep (s := socketTyping r (w.sockets i)) rfl h ?_ ?_
    · unfold socketTyping
      split
      · exact attend_user _ _
      · rfl
    · unfold socketTyping
      split
      · exact attend_rooms _ _
      · rfl
  | close i => exact follows_set rfl h rfl rfl

/-- A move touches the connections only. -/
theorem db_move {e : Happening} {p : Nat × Move} (h : move cfg w e = some p) : (happen cfg w e).db = w.db := by
  cases e with
  | api e =>
    cases e with
    | socketOpen i token =>
      change ((respond cfg (.socketOpen i token)).exec w).2.db = w.db
      unfold respond
      rw [Prog.exec_modify_bind]
      cases token with
      | none => rfl
      | some token => exact frames_socketAuth i token _
    | socketAuth i token => exact frames_socketAuth i token w
    | socketCommand i c => exact frames_socketCommand i c w
    | _ => cases h
  | service req => cases h
  | typing i r => cases h
  | close i => rfl

/-- A room is granted to the user of the connection, who sees it. -/
theorem move_follows {e : Happening} {i : Nat} {r : RoomId} {u : UserId} (h : move cfg w e = some (i, .follows r u)) :
    (w.sockets i).currentUser = some u ∧ sees w.db r u = true := by
  cases e with
  | api e =>
    cases e with
    | socketAuth i' token =>
      obtain ⟨user, -, heq⟩ := Option.map_eq_some_iff.1 h
      cases heq
    | socketCommand i' c =>
      obtain ⟨m, hm, heq⟩ := Option.map_eq_some_iff.1 h
      cases heq
      cases c with
      | subscribe r' =>
        unfold commandMove at hm
        rcases huser : (w.sockets i).currentUser with _ | user <;> rw [huser] at hm
        · cases hm
        · simp only [Option.ite_none_right_eq_some] at hm
          obtain ⟨hsees, heq⟩ := hm
          cases heq
          exact ⟨rfl, hsees⟩
      | unsubscribe r' => cases hm
      | focus r' => cases hm
    | socketOpen i' token => cases h
    | _ => cases h
  | service req => cases h
  | typing i' r' => cases h
  | close i' => cases h

end Refinement

/-! ## What is delivered -/

/-- The world, what was granted over each connection, and which rooms which user has lost sight of. -/
structure Watched where
  world : World
  following : Nat → Following
  lost : RoomId → UserId → Bool

/-- A database nobody is connected to yet. -/
def Watched.start (db : Db) : Watched where
  world := { db, sockets := fun _ => Session.fresh }
  following := fun _ => { user := none, rooms := [], granted := [] }
  lost := fun _ _ => false

/-- What is lost: what could be seen before, and cannot be seen now. -/
def loses (before after : Db) (lost : RoomId → UserId → Bool) (r : RoomId) (u : UserId) : Bool :=
  !sees after r u && (lost r u || sees before r u)

def watch (cfg : Config) (s : Watched) (e : Happening) : Watched where
  world := happen cfg s.world e
  following := moved (move cfg s.world e) s.following
  lost := loses s.world.db (happen cfg s.world e).db s.lost

/-- Every event of a room that a connection takes is of a room that was granted on it to the user it has now. -/
def DeliveredGranted (s : Watched) : Prop :=
  ∀ i isStaff (e : ChatServerEvent) r, e.roomId = some r → (s.world.sockets i).accepts isStaff e = true →
    ∃ u, (s.world.sockets i).currentUser = some u ∧ (r, u) ∈ (s.following i).granted

/-- No event of a room that a user has lost sight of is taken by a connection of that user. -/
def DeliveredCutOff (s : Watched) : Prop :=
  ∀ i isStaff (e : ChatServerEvent) r u, e.roomId = some r → (s.world.sockets i).currentUser = some u →
    s.lost r u = true → (s.world.sockets i).accepts isStaff e = false

/-- Whoever takes an identity on was granted, on that connection, every room it follows. -/
def InheritsNothing (cfg : Config) (s : Watched) (e : Happening) : Prop :=
  ∀ i u, move cfg s.world e = some (i, .identifies u) →
    ∀ r ∈ (s.world.sockets i).subscribedRooms, (r, u) ∈ (s.following i).granted

/-- Whoever is about to lose sight of a room follows it on no connection, and nobody takes an identity on where a room
is followed that this user has lost. -/
def LosesUnheard (cfg : Config) (s : Watched) (e : Happening) : Prop :=
  (∀ r u, sees s.world.db r u = true → sees (happen cfg s.world e).db r u = false →
    ∀ i, (s.world.sockets i).currentUser = some u → (s.world.sockets i).isSubscribed r = false) ∧
  ∀ i u, move cfg s.world e = some (i, .identifies u) → ∀ r ∈ (s.world.sockets i).subscribedRooms, s.lost r u = false

/-- What holds of every run. -/
structure Sound (s : Watched) : Prop where
  follows : Follows s.world s.following
  owned : ∀ i, (s.following i).Owned
  hidden : ∀ r u, s.lost r u = true → sees s.world.db r u = false

section Laws

variable {cfg : Config} {s : Watched}

theorem sound_start (db : Db) : Sound (Watched.start db) where
  follows := fun _ => ⟨rfl, rfl⟩
  owned := fun _ _ => rfl
  hidden := fun _ _ h => nomatch h

theorem sound_watch (s : Watched) (e : Happening) (h : Sound s) : Sound (watch cfg s e) where
  follows := follows_happen h.follows e
  owned := by
    change ∀ i, (moved (move cfg s.world e) s.following i).Owned
    rcases hm : move cfg s.world e with _ | ⟨i, m⟩
    · exact h.owned
    · refine (forall_moved h.owned).2 (Following.owned_apply (h.owned i) ?_)
      rintro r u rfl
      exact (h.follows i).1.symm.trans (move_follows hm).1
  hidden := by
    intro r u hlost
    change (!_ && _) = true at hlost
    rw [Bool.and_eq_true, Bool.not_eq_true'] at hlost
    exact hlost.1

theorem deliveredGranted_iff (h : Sound s) : DeliveredGranted s ↔ ∀ i, (s.following i).Granted := by
  constructor
  · intro hd i r hr
    rw [← (h.follows i).2] at hr
    obtain ⟨u, hu, hg⟩ := hd i false (.messageDeleted r ⟨0⟩) r rfl (by rw [Session.accepts_room rfl]; exact decide_eq_true hr)
    exact ⟨u, (h.follows i).1.symm.trans hu, hg⟩
  · intro hg i isStaff e r he hacc
    rw [Session.accepts_room he] at hacc
    obtain ⟨u, hu, hgr⟩ := hg i r (by rw [← (h.follows i).2]; exact of_decide_eq_true hacc)
    exact ⟨u, (h.follows i).1.trans hu, hgr⟩

theorem deliveredCutOff_iff (h : Sound s) : DeliveredCutOff s ↔ ∀ i, (s.following i).CutOff s.lost := by
  constructor
  · intro hd i u hu r hr
    rw [← (h.follows i).1] at hu
    rw [← (h.follows i).2] at hr
    by_contra hlost
    have := hd i false (.messageDeleted r ⟨0⟩) r u rfl hu (by simpa using hlost)
    rw [Session.accepts_room rfl] at this
    exact of_decide_eq_false this hr
  · intro hc i isStaff e r u he hu hlost
    rw [Session.accepts_room he]
    refine decide_eq_false fun hr => ?_
    have := hc i u ((h.follows i).1.symm.trans hu) r ((h.follows i).2 ▸ hr)
    rw [hlost] at this
    cases this

/-- Only a new identity can be without a grant. -/
theorem granted_step (s : Watched) (e : Happening) (h : Sound s) (hd : DeliveredGranted s) :
    DeliveredGranted (watch cfg s e) ↔ InheritsNothing cfg s e := by
  rw [deliveredGranted_iff (sound_watch s e h)]
  rw [deliveredGranted_iff h] at hd
  unfold InheritsNothing
  change (∀ i, (moved (move cfg s.world e) s.following i).Granted) ↔ _
  rcases hm : move cfg s.world e with _ | ⟨i, m⟩
  · exact ⟨fun _ i u h => (by cases h), fun _ => hd⟩
  · rw [forall_moved hd]
    constructor
    · intro hg j u heq r hr
      cases heq
      exact Following.granted_identifies.1 hg r ((h.follows i).2 ▸ hr)
    · intro hc
      cases m with
      | opens user => exact fun r hr => nomatch hr
      | identifies u =>
        refine Following.granted_identifies.2 fun r hr => hc i u rfl r ?_
        rw [(h.follows i).2]
        exact hr
      | follows r u => exact Following.granted_follows (hd i) ((h.follows i).1.symm.trans (move_follows hm).1)
      | drops r => exact Following.granted_drops (hd i)

/-- Where the database stays, what is lost stays. -/
theorem loses_same {db : Db} {lost : RoomId → UserId → Bool} (h : ∀ r u, lost r u = true → sees db r u = false) :
    loses db db lost = lost := by
  funext r u
  unfold loses
  cases hs : sees db r u with
  | true =>
    cases hl : lost r u with
    | true => cases (h r u hl).symm.trans hs
    | false => rfl
  | false => simp

/-- A connection is cut off as long as nobody on it loses sight of a room it follows. -/
theorem cutOff_step (s : Watched) (e : Happening) (h : Sound s) (hd : DeliveredCutOff s) :
    DeliveredCutOff (watch cfg s e) ↔ LosesUnheard cfg s e := by
  rw [deliveredCutOff_iff (sound_watch s e h)]
  rw [deliveredCutOff_iff h] at hd
  unfold LosesUnheard
  change (∀ i, (moved (move cfg s.world e) s.following i).CutOff (loses s.world.db (happen cfg s.world e).db s.lost)) ↔ _
  rcases hm : move cfg s.world e with _ | ⟨i, m⟩
  · -- no connection moves, and the services may take a room out of sight
    constructor
    · intro hc
      refine ⟨fun r u hsees hsees' i hu => decide_eq_false fun hr => ?_, fun i u h => (by cases h)⟩
      have := hc i u ((h.follows i).1.symm.trans hu) r ((h.follows i).2 ▸ hr)
      unfold loses at this
      rw [hsees, hsees', Bool.or_true] at this
      cases this
    · rintro ⟨hc, -⟩ i u hu r hr
      change (s.following i).user = some u at hu
      change r ∈ (s.following i).rooms at hr
      unfold loses
      rw [hd i u hu r hr, Bool.false_or]
      cases hsees : sees s.world.db r u with
      | false => exact Bool.and_false _
      | true =>
        cases hsees' : sees (happen cfg s.world e).db r u with
        | true => rfl
        | false =>
          have := hc r u hsees hsees' i ((h.follows i).1.trans hu)
          exact absurd ((h.follows i).2 ▸ hr) (of_decide_eq_false this)
  · -- a connection moves, and every room stays in sight of whom it was
    have hdb := db_move hm
    rw [hdb, loses_same h.hidden, forall_moved hd]
    constructor
    · intro hc
      refine ⟨fun r u hsees hsees' => absurd (hsees.symm.trans hsees') (by simp), fun j u heq r hr => ?_⟩
      cases heq
      exact Following.cutOff_identifies.1 hc r ((h.follows i).2 ▸ hr)
    · rintro ⟨-, hc⟩
      cases m with
      | opens user => exact fun u hu r hr => nomatch hr
      | identifies u =>
        refine Following.cutOff_identifies.2 fun r hr => hc i u rfl r ?_
        rw [(h.follows i).2]
        exact hr
      | follows r u =>
        obtain ⟨huser, hsees⟩ := move_follows hm
        refine Following.cutOff_follows (hd i) ((h.follows i).1.symm.trans huser) (Bool.eq_false_iff.2 fun hlost => ?_)
        exact nomatch hsees.symm.trans (h.hidden r u hlost)
      | drops r => exact Following.cutOff_drops (hd i)

end Laws

/-- In every run: events of a room only ever reach users who were granted that room on that connection, exactly if
nobody takes an identity on over a connection that follows a room this identity was not granted on it. -/
theorem delivery_granted (cfg : Config) (db : Db) (es : List Happening) :
    Always (watch cfg) DeliveredGranted (Watched.start db) es ↔ Along (watch cfg) (InheritsNothing cfg) (Watched.start db) es :=
  always_iff_along sound_watch granted_step (sound_start db) ((deliveredGranted_iff (sound_start db)).2 fun _ _ hr => nomatch hr)

/-- In every run: users who have lost sight of a room hear nothing of it, exactly if nobody follows a room at the moment
of losing sight of it, nor takes an identity on where a room is followed that this identity has lost. -/
theorem delivery_cut_off (cfg : Config) (db : Db) (es : List Happening) :
    Always (watch cfg) DeliveredCutOff (Watched.start db) es ↔ Along (watch cfg) (LosesUnheard cfg) (Watched.start db) es :=
  always_iff_along sound_watch cutOff_step (sound_start db) ((deliveredCutOff_iff (sound_start db)).2 fun _ _ _ _ hr => nomatch hr)

/-! ### Two connections that hear too much -/

/-- `ana` has a community with one room, and lets nobody else in; `ben` is there, too. -/
def council : List Happening :=
  [.service (.register (account ⟨2⟩ "ana")), .service (.register (account ⟨3⟩ "ben")),
    .service (.createCommunity ⟨40⟩ ⟨2⟩ [] []),
    .service (.create ⟨10⟩ (some ⟨40⟩) ⟨2⟩ { name := "council", roomType := .text })]

/-- She opens a connection and subscribes, and then the connection is authenticated as `ben`. -/
def handedOver : List Happening :=
  council ++ [.api (.socketOpen 0 (some (tokenAtEpoch ⟨2⟩ rootDraw))), .api (.socketCommand 0 (.subscribe ⟨10⟩)),
    .api (.socketAuth 0 (tokenAtEpoch ⟨3⟩ malDraw))]

/-- He hears the council, which he cannot see. -/
theorem council_overheard :
    ¬ Always (watch plain) DeliveredGranted (Watched.start (Db.empty 0)) handedOver ∧
    ((run (watch plain) (Watched.start (Db.empty 0)) handedOver).world.sockets 0).currentUser = some ⟨3⟩ ∧
    sees (run (watch plain) (Watched.start (Db.empty 0)) handedOver).world.db ⟨10⟩ ⟨3⟩ = false ∧
    ((run (watch plain) (Watched.start (Db.empty 0)) handedOver).world.sockets 0).accepts false
      (.typing ⟨10⟩ ⟨2⟩ "ana" true) = true := by
  have huser : ((run (watch plain) (Watched.start (Db.empty 0)) handedOver).world.sockets 0).currentUser = some ⟨3⟩ := by
    decide +kernel
  have hheard : ((run (watch plain) (Watched.start (Db.empty 0)) handedOver).world.sockets 0).accepts false
      (.typing ⟨10⟩ ⟨2⟩ "ana" true) = true := by decide +kernel
  have hgranted : ((run (watch plain) (Watched.start (Db.empty 0)) handedOver).following 0).granted = [(⟨10⟩, ⟨2⟩)] := by
    decide +kernel
  refine ⟨fun h => ?_, huser, by decide +kernel, hheard⟩
  obtain ⟨u, hu, hg⟩ := h.last 0 false _ ⟨10⟩ rfl hheard
  obtain rfl := Option.some.inj (huser.symm.trans hu)
  rw [hgranted] at hg
  exact absurd hg (by decide)

/-- `ben` subscribes to his conversation with `ana`, who blocks him. -/
def blockedWhileListening : List Happening :=
  [.service (.register (account ⟨2⟩ "ana")), .service (.register (account ⟨3⟩ "ben")),
    .service (.openDirect ⟨10⟩ ⟨2⟩ ⟨3⟩ "ben" "ben"),
    .api (.socketOpen 0 (some (tokenAtEpoch ⟨3⟩ malDraw))), .api (.socketCommand 0 (.subscribe ⟨10⟩)),
    .service (.block ⟨2⟩ ⟨3⟩)]

/-- He goes on hearing when she types there. -/
theorem blocked_listener :
    ¬ Always (watch plain) DeliveredCutOff (Watched.start (Db.empty 0)) blockedWhileListening ∧
    sees (run (watch plain) (Watched.start (Db.empty 0)) blockedWhileListening).world.db ⟨10⟩ ⟨3⟩ = false ∧
    ((run (watch plain) (Watched.start (Db.empty 0)) blockedWhileListening).world.sockets 0).accepts false
      (.typing ⟨10⟩ ⟨2⟩ "ana" true) = true := by
  have hheard : ((run (watch plain) (Watched.start (Db.empty 0)) blockedWhileListening).world.sockets 0).accepts false
      (.typing ⟨10⟩ ⟨2⟩ "ana" true) = true := by decide +kernel
  refine ⟨fun h => ?_, by decide +kernel, hheard⟩
  have := h.last 0 false (.typing ⟨10⟩ ⟨2⟩ "ana" true) ⟨10⟩ ⟨3⟩ rfl (by decide +kernel) (by decide +kernel)
  rw [hheard] at this
  cases this

end Genzh.Api
