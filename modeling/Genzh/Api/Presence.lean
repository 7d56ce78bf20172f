/-
Counting connections. A socket is counted for the user it last authenticated as, from the moment the presence store
was told it opened to the moment it is told it closed; it remembers whom it is counted as, and what it tells the store
when the identity changes is two calls, between which the calls of other sockets may run.

`counted_right` is the accounting: over any interleaving, the store's count of a user is the number of sockets that
stand for them there, and what it reports about them alternates.
-/
import Genzh.Infrastructure.Presence
import Genzh.Lib.Interleaving

namespace Genzh.Api

open Genzh.Lib Genzh.Domain Genzh.Infrastructure

/-- Which way a connection just went. -/
inductive Connection where
  /-- A socket authenticated as this user. -/
  | opened
  /-- A socket that was counted for this user has gone. -/
  | closed
  deriving DecidableEq, Repr

/-- The store call of a connection change. -/
def Connection.record (user : UserId) (presence : InMemoryPresenceStore) : Connection → PresenceChange × InMemoryPresenceStore
  | opened => presence.connect user
  | closed => presence.disconnect user

/-! ## One socket -/

/-- Where a socket is between two calls to the store. -/
inductive Doing where
  /-- Waiting for what the client says next. -/
  | idle
  /-- About to tell the store that the identity it is counted as has left it, for `next`. -/
  | leaving (next : UserId)
  /-- About to tell the store about the identity it is now counted as. -/
  | arriving
  /-- On its way out, with one more call to make. -/
  | closing (user : UserId)
  | gone
  deriving DecidableEq, Repr

/-- What a connection remembers for presence. -/
structure Socket where
  countedAs : Option UserId
  doing : Doing
  deriving DecidableEq, Repr

/-- What comes over a socket, or happens to it: a token, with the user it authenticates if it is valid, or the end. -/
inductive Frame where
  | auth (token : Option UserId)
  | close
  deriving DecidableEq, Repr

namespace Socket

def new : Socket := ⟨none, .idle⟩

/-- Accept a token, moving the presence count if the identity changed. -/
def authenticate (s : Socket) : Option UserId → Socket
  | none => s
  | some user =>
    if s.countedAs = some user then s
    else
      match s.countedAs with
      | some _ => { s with doing := .leaving user }
      | none => { countedAs := some user, doing := .arriving }

/-- Undo whatever this connection was counted as. -/
def release (s : Socket) : Socket :=
  match s.countedAs with
  | some user => { countedAs := none, doing := .closing user }
  | none => { countedAs := none, doing := .gone }

/-- A frame is handled once the one before it has been, and none is once the socket is gone. -/
def handle (s : Socket) (f : Frame) : Socket :=
  match s.doing with
  | .idle =>
    match f with
    | .auth token => s.authenticate token
    | .close => s.release
  | .leaving _ | .arriving | .closing _ | .gone => s

/-- The store call the socket is at. -/
def call (s : Socket) : Option (Connection × UserId) :=
  match s.doing with
  | .leaving _ => s.countedAs.map fun previous => (.closed, previous)
  | .arriving => s.countedAs.map fun user => (.opened, user)
  | .closing user => some (.closed, user)
  | .idle | .gone => none

/-- The socket once its call has returned. -/
def returned (s : Socket) : Socket :=
  match s.doing with
  | .leaving next => { countedAs := some next, doing := .arriving }
  | .arriving => { s with doing := .idle }
  | .closing _ => { s with doing := .gone }
  | .idle | .gone => s

/-- Is the socket open, with no change of identity under way? -/
def isOpen (s : Socket) : Bool := s.doing = .idle

/-- Is the socket between two frames, or gone for good? -/
def atRest (s : Socket) : Bool := s.doing = .idle || s.doing = .gone

/-- Whom the socket stands for in the store: whoever it told the store about and has not taken back. -/
def counted (s : Socket) : Option UserId :=
  match s.doing with
  | .idle | .leaving _ => s.countedAs
  | .closing user => some user
  | .arriving | .gone => none

variable {s : Socket} {u : UserId}

/-- Frames change what a socket is about to tell the store, not what it told it. -/
theorem counted_handle (f : Frame) : (s.handle f).counted = s.counted := by
  obtain ⟨countedAs, doing⟩ := s
  cases doing with
  | idle =>
    cases f with
    | auth token =>
      cases token with
      | none => rfl
      | some user =>
        unfold handle authenticate
        simp only
        split
        · rfl
        · cases countedAs <;> rfl
    | close => cases countedAs <;> rfl
  | leaving next => rfl
  | arriving => rfl
  | closing user => rfl
  | gone => rfl

theorem counted_opened (h : s.call = some (.opened, u)) : s.counted = none ∧ s.returned.counted = some u := by
  obtain ⟨countedAs, doing⟩ := s
  cases doing with
  | arriving => cases countedAs <;> simp_all [call, counted, returned]
  | leaving next => cases countedAs <;> simp_all [call]
  | _ => simp [call] at h

theorem counted_closed (h : s.call = some (.closed, u)) : s.counted = some u ∧ s.returned.counted = none := by
  obtain ⟨countedAs, doing⟩ := s
  cases doing with
  | arriving => cases countedAs <;> simp_all [call]
  | leaving next => cases countedAs <;> simp_all [call, counted, returned]
  | closing user => simp_all [call, counted, returned]
  | _ => simp [call] at h

theorem counted_at_rest (h : s.atRest = true) : s.counted = some u ↔ s.isOpen = true ∧ s.countedAs = some u := by
  obtain ⟨countedAs, doing⟩ := s
  cases doing <;> simp_all [atRest, counted, isOpen]

end Socket

/-! ## All of them -/

/-- The store, what it reported so far, and the sockets. -/
structure Presence (I : Type*) where
  store : InMemoryPresenceStore
  reported : List (UserId × PresenceChange)
  sockets : I → Socket

namespace Presence

/-- A frame arrives over a socket, or its call to the store runs. -/
inductive Event (I : Type*) where
  | frame (i : I) (f : Frame)
  | turn (i : I)
  deriving DecidableEq, Repr

variable {I : Type*}

/-- Nobody has connected yet. -/
def start : Presence I := ⟨.new, [], fun _ => .new⟩

/-- The states announced of a user, in the order the store reported them. -/
def transitions (p : Presence I) (u : UserId) : List Bool :=
  p.reported.filterMap fun r => if r.1 = u then r.2.announcedState else none

/-! ## The accounting -/

/-- On, off, and so on. -/
def Alternates (states : List Bool) : Prop := ∀ k b, states[k]? = some b → b = decide (k % 2 = 0)

/-- The states announced of a user alternate, and the last of them is whether the store counts anything. -/
structure Tracks (states : List Bool) (count : Nat) : Prop where
  alternates : Alternates states
  online : states.length % 2 = 1 ↔ 0 < count

section Tracks

variable {states : List Bool} {n : Nat}

theorem Alternates.append {b : Bool} (h : Alternates states) (hb : b = decide (states.length % 2 = 0)) :
    Alternates (states ++ [b]) := by
  intro k c hk
  rw [List.getElem?_append] at hk
  split at hk
  · exact h k c hk
  · obtain ⟨hlt, rfl⟩ := List.getElem?_eq_some_iff.1 hk
    have hlen : k = states.length := by
      simp only [List.length_singleton] at hlt
      omega
    subst hlen
    simpa using hb

theorem tracks_nil : Tracks [] 0 := ⟨fun k b h => by simp at h, by simp⟩

/-- The first connection is announced, and no other. -/
theorem Tracks.opened (h : Tracks states n) :
    Tracks (states ++ (if n = 0 then PresenceChange.cameOnline else .unchanged).announcedState.toList) (n + 1) := by
  by_cases hn : n = 0
  · have heven : states.length % 2 = 0 := by
      have := h.online
      omega
    subst hn
    refine ⟨h.alternates.append (by simp [heven]), ?_⟩
    simp only [List.length_append]
    show (states.length + 1) % 2 = 1 ↔ _
    omega
  · rw [if_neg hn]
    refine ⟨by simpa [PresenceChange.announcedState] using h.alternates, ?_⟩
    have := h.online
    simp only [PresenceChange.announcedState, Option.toList_none, List.append_nil]
    omega

/-- The last of the connections is announced when it closes, and no other. -/
theorem Tracks.closed (h : Tracks states n) (hpos : 0 < n) :
    Tracks (states ++ (if n = 1 then PresenceChange.wentOffline else .unchanged).announcedState.toList) (n - 1) := by
  have hodd := h.online.2 hpos
  by_cases hn : n = 1
  · subst hn
    refine ⟨h.alternates.append (by simp [hodd]), ?_⟩
    simp only [List.length_append]
    show (states.length + 1) % 2 = 1 ↔ _
    omega
  · rw [if_neg hn]
    refine ⟨by simpa [PresenceChange.announcedState] using h.alternates, ?_⟩
    simp only [PresenceChange.announcedState, Option.toList_none, List.append_nil]
    omega

end Tracks

/-- One more report: the states announced of the user it is about. -/
theorem transitions_append (p q : Presence I) (user u : UserId) (change : PresenceChange)
    (h : q.reported = p.reported ++ [(user, change)]) :
    q.transitions u = p.transitions u ++ (if user = u then change.announcedState else none).toList := by
  unfold transitions
  rw [h, List.filterMap_append]
  by_cases hu : user = u <;> cases change <;> simp [hu, PresenceChange.announcedState]

variable [DecidableEq I]

def step (p : Presence I) : Event I → Presence I
  | .frame i f => { p with sockets := Function.update p.sockets i ((p.sockets i).handle f) }
  | .turn i =>
    match (p.sockets i).call with
    | none => p
    | some (connection, user) =>
      { store := (connection.record user p.store).2
        reported := p.reported ++ [(user, (connection.record user p.store).1)]
        sockets := Function.update p.sockets i (p.sockets i).returned }

variable [Fintype I]

/-- How many sockets stand for a user in the store. -/
def standing (sockets : I → Socket) (u : UserId) : Nat := System.tally (fun s => s.counted = some u) sockets

section Standing

variable {sockets : I → Socket} {i : I} {s : Socket} {u v : UserId}

theorem standing_of_eq (h : s.counted = (sockets i).counted) : standing (Function.update sockets i s) u = standing sockets u :=
  System.tally_update_of_iff (by rw [h])

theorem standing_opened (hbefore : (sockets i).counted = none) (hafter : s.counted = some u) :
    standing (Function.update sockets i s) v = standing sockets v + if u = v then 1 else 0 := by
  by_cases h : u = v
  · subst h
    rw [if_pos rfl]
    exact System.tally_update_of_new hafter (by simp [hbefore])
  · rw [if_neg h]
    exact System.tally_update_of_iff (by simp [hbefore, hafter, h])

theorem standing_closed (hbefore : (sockets i).counted = some u) (hafter : s.counted = none) :
    standing (Function.update sockets i s) v = standing sockets v - if u = v then 1 else 0 := by
  by_cases h : u = v
  · subst h
    have hless : standing (Function.update sockets i s) u + 1 = standing sockets u :=
      System.tally_update_of_old (by simp [hafter]) hbefore
    rw [if_pos rfl]
    omega
  · rw [if_neg h]
    exact System.tally_update_of_iff (by simp [hbefore, hafter, h])

end Standing

/-- The store counts the sockets that stand for each user, and reported of each that they came and went in turn. -/
structure Right (p : Presence I) : Prop where
  count : ∀ u, p.store.count u = standing p.sockets u
  reports : ∀ u, Tracks (p.transitions u) (p.store.count u)

variable {p : Presence I}

omit [DecidableEq I] in
theorem right_start : Right (start : Presence I) where
  count := fun u => (System.tally_eq_zero fun i => by simp [start, Socket.new, Socket.counted]).symm
  reports := fun u => tracks_nil

theorem Right.frame (h : Right p) (i : I) (f : Frame) : Right (p.step (.frame i f)) := by
  refine ⟨fun u => ?_, h.reports⟩
  rw [show (p.step (.frame i f)).sockets = Function.update p.sockets i ((p.sockets i).handle f) from rfl]
  rw [standing_of_eq (Socket.counted_handle f)]
  exact h.count u

omit [Fintype I] in
/-- A turn at which a socket makes its call to the store. -/
theorem step_call {i : I} {connection : Connection} {user : UserId} (h : (p.sockets i).call = some (connection, user)) :
    p.step (.turn i) =
      { store := (connection.record user p.store).2
        reported := p.reported ++ [(user, (connection.record user p.store).1)]
        sockets := Function.update p.sockets i (p.sockets i).returned } := by
  unfold step
  simp only [h]

/-- A socket that tells the store it opened did not stand for anybody. -/
theorem Right.opened (h : Right p) {i : I} {user : UserId} (hcall : (p.sockets i).call = some (.opened, user)) :
    Right (p.step (.turn i)) := by
  obtain ⟨hbefore, hafter⟩ := Socket.counted_opened hcall
  have hreported := transitions_append p (p.step (.turn i)) user
  rw [step_call hcall] at hreported ⊢
  refine ⟨fun u => ?_, fun u => ?_⟩
  · rw [standing_opened hbefore hafter]
    simp only [Connection.record, InMemoryPresenceStore.count_connect, h.count]
  · rw [hreported u _ rfl]
    simp only [Connection.record, InMemoryPresenceStore.count_connect, InMemoryPresenceStore.change_connect]
    by_cases hu : user = u
    · subst hu
      rw [if_pos rfl, if_pos rfl]
      exact (h.reports user).opened
    · rw [if_neg hu, if_neg hu]
      simpa using h.reports u

/-- A socket that tells the store it closed stood for the user it names, so there is something to count down. -/
theorem Right.closed (h : Right p) {i : I} {user : UserId} (hcall : (p.sockets i).call = some (.closed, user)) :
    Right (p.step (.turn i)) := by
  obtain ⟨hbefore, hafter⟩ := Socket.counted_closed hcall
  have hpos : 0 < p.store.count user := by
    rw [h.count]
    exact System.tally_pos hbefore
  have hreported := transitions_append p (p.step (.turn i)) user
  rw [step_call hcall] at hreported ⊢
  refine ⟨fun u => ?_, fun u => ?_⟩
  · rw [standing_closed hbefore hafter]
    simp only [Connection.record, InMemoryPresenceStore.count_disconnect, h.count]
  · rw [hreported u _ rfl]
    simp only [Connection.record, InMemoryPresenceStore.count_disconnect, InMemoryPresenceStore.change_disconnect]
    by_cases hu : user = u
    · subst hu
      rw [if_pos rfl, if_pos rfl]
      exact (h.reports user).closed hpos
    · rw [if_neg hu, if_neg hu]
      simpa using h.reports u

theorem Right.step (h : Right p) (e : Event I) : Right (p.step e) := by
  cases e with
  | frame i f => exact h.frame i f
  | turn i =>
    rcases hcall : (p.sockets i).call with _ | ⟨connection, user⟩
    · unfold Presence.step
      simpa only [hcall] using h
    · cases connection with
      | opened => exact h.opened hcall
      | closed => exact h.closed hcall

/-- Over any interleaving of frames and store calls, with any number of sockets, the store counts for each user the
sockets that stand for them there, which are the open ones counted as that user once no change of identity or close is
under way, and the transitions it reports of each user are online, offline, online, and so on. -/
theorem counted_right (es : List (Event I)) (u : UserId) :
    (run Presence.step start es).store.count u = standing (run Presence.step start es).sockets u ∧
      ((∀ i, ((run Presence.step start es).sockets i).atRest = true) →
        (run Presence.step start es).store.count u =
          System.tally (fun s => s.isOpen = true ∧ s.countedAs = some u) (run Presence.step start es).sockets) ∧
      Alternates ((run Presence.step start es).transitions u) := by
  have h : Right (run Presence.step start es) := run_of_step (fun _ e h => h.step e) right_start
  refine ⟨h.count u, fun hrest => ?_, (h.reports u).alternates⟩
  rw [h.count u]
  unfold standing System.tally
  congr 1
  ext i
  simp only [Finset.mem_filter, Finset.mem_univ, true_and]
  exact Socket.counted_at_rest (hrest i)

end Presence

end Genzh.Api
