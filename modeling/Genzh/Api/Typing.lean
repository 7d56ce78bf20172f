/-
Who is said to be typing. A connection tells a room "typing" at most once a second, and "stopped" when it said "typing"
before; what it remembers for that is when it last said "typing", until it says "stopped". So a start that follows a stop is
not held back, and a stop that comes after the room was left is not let through.
-/
import Genzh.Api.Commands
import Genzh.Lib.Run

namespace Genzh.Api.Ws

open Genzh.Lib Genzh.Domain Genzh.Infrastructure

/-- Time passes, or something arrives. -/
inductive Moment where
  | tick (passed : Nat)
  | arrives (a : Arrival)
  deriving DecidableEq, Repr

/-- A connection, and the typing events it has published. -/
structure Typist where
  clock : Nat
  session : Session
  published : List Typing

/-- The last typing event of a room. -/
def lastOf (r : RoomId) (published : List Typing) : Option Typing := (published.filter fun e => e.roomId = r).getLast?

/-- Was a start published in the room since the last stop? -/
def lit (r : RoomId) (published : List Typing) : Bool := (lastOf r published).any (·.isTyping)

namespace Typist

/-- A connection just opened. -/
def opened : Typist := ⟨0, .new, []⟩

def step (σ : Typist) : Moment → Typist
  | .tick passed => { σ with clock := σ.clock + passed }
  | .arrives a =>
    let handled := arrive σ.clock σ.session a
    { σ with session := handled.session, published := σ.published ++ handled.typing.toList }

/-- Two starts in one room are a second apart. -/
def Spaced (published : List Typing) : Prop :=
  published.Pairwise fun e e' => e.isTyping = true → e'.isTyping = true → e.roomId = e'.roomId → e.sentAt + typingInterval ≤ e'.sentAt

/-- At most one start a second was published in each room. -/
def Throttled (σ : Typist) : Prop := Spaced σ.published

/-- A stop that the client asks for is published exactly if a start was since the last stop. -/
def StopsMatched (σ : Typist) (m : Moment) : Prop :=
  ∀ r, m = .arrives (.command (.typing r false)) → σ.session.released = false →
    ((∃ e, (σ.step m).published = σ.published ++ [e] ∧ e.roomId = r ∧ e.isTyping = false) ↔ lit r σ.published = true)

/-- A start that follows a stop comes a second after the start before, and a stop that ends a start comes while the room is
followed. -/
structure Timely (σ : Typist) (m : Moment) : Prop where
  starts : ∀ r, m = .arrives (.command (.typing r true)) → σ.session.released = false → σ.session.currentUser.isSome = true →
    σ.session.isSubscribed r = true → lit r σ.published = false →
    ∀ e ∈ σ.published, e.roomId = r → e.isTyping = true → e.sentAt + typingInterval ≤ σ.clock
  stops : ∀ r, m = .arrives (.command (.typing r false)) → σ.session.released = false → lit r σ.published = true →
    σ.session.isSubscribed r = true

end Typist

/-! ## The last event of a room -/

section LastOf

variable {published : List Typing} {r : RoomId} {e : Typing}

@[simp] theorem lastOf_nil (r : RoomId) : lastOf r [] = none := rfl

theorem lastOf_append (r : RoomId) (published : List Typing) (e : Typing) :
    lastOf r (published ++ [e]) = if e.roomId = r then some e else lastOf r published := by
  unfold lastOf
  rw [List.filter_append]
  by_cases h : e.roomId = r <;> simp [h]

/-- What was published in a room was not published after the last. -/
theorem le_lastOf (hordered : published.Pairwise fun e e' => e.sentAt ≤ e'.sentAt) (h : lastOf r published = some e) :
    ∀ e' ∈ published, e'.roomId = r → e'.sentAt ≤ e.sentAt := by
  -- from the end, where the last event of the room is found
  induction published using List.reverseRecOn with
  | nil => cases h
  | append_singleton published e₁ ih =>
    rw [List.pairwise_append] at hordered
    rw [lastOf_append] at h
    intro e' he' hr
    by_cases h₁ : e₁.roomId = r
    · rw [if_pos h₁] at h
      obtain rfl := Option.some.inj h
      rcases List.mem_append.1 he' with he' | he'
      · exact hordered.2.2 e' he' e₁ (List.mem_singleton_self _)
      · rw [List.mem_singleton.1 he']
    · rw [if_neg h₁] at h
      rcases List.mem_append.1 he' with he' | he'
      · exact ih hordered.1 h e' he' hr
      · rw [List.mem_singleton.1 he'] at hr
        exact absurd hr h₁

theorem spaced_append : Typist.Spaced (published ++ [e]) ↔
    Typist.Spaced published ∧ ∀ e' ∈ published, e'.isTyping = true → e.isTyping = true → e'.roomId = e.roomId →
      e'.sentAt + typingInterval ≤ e.sentAt := by
  unfold Typist.Spaced
  rw [List.pairwise_append]
  simp

end LastOf

/-! ## One connection -/

section One

variable {s : Session} {now : Nat} {r : RoomId} {u : UserId}

theorem typingSent_attend (s : Session) (room : Option RoomId) :
    (s.attend room).session.typingSent = s.typingSent ∧ (s.attend room).typing = none ∧
      (s.attend room).session.currentUser = s.currentUser := by
  rcases huser : s.currentUser with _ | u
  · rw [attend_none huser]
    exact ⟨rfl, rfl, huser⟩
  · rw [attend_some huser]
    exact ⟨rfl, rfl, huser⟩

/-- What a handled command leaves of the typing state: when rooms were told, what is published, and whether anybody is
authenticated. -/
structure Quiet (s : Session) (h : Handled) : Prop where
  sent : h.session.typingSent = s.typingSent
  typing : h.typing = none
  user : h.session.currentUser = none → s.currentUser = none

theorem quiet_self (s : Session) : Quiet s { session := s } := ⟨rfl, rfl, id⟩

theorem quiet_attend (s : Session) (room : Option RoomId) : Quiet s (s.attend room) := by
  obtain ⟨hsent, htyping, huser⟩ := typingSent_attend s room
  exact ⟨hsent, htyping, fun h => huser ▸ h⟩

theorem quiet_subscribe (s : Session) (r : RoomId) : Quiet s (s.subscribe r) := by
  unfold Session.subscribe
  by_cases hpending : s.pendingFocus = some r
  · rw [if_pos hpending]
    obtain ⟨hsent, htyping, huser⟩ := quiet_attend (s.insertRoom r) (some r)
    exact ⟨hsent, htyping, huser⟩
  · rw [if_neg hpending]
    exact ⟨rfl, rfl, id⟩

theorem quiet_authenticate (s : Session) (u : UserId) : Quiet s (s.authenticate u) := by
  unfold Session.authenticate
  rcases s.countedAs with _ | previous
  · exact ⟨rfl, rfl, fun hu => (by cases hu)⟩
  · by_cases hsame : previous = u
    · simp only [hsame, if_true]
      exact ⟨rfl, rfl, fun hu => (by cases hu)⟩
    · simp only [Option.some.injEq, hsame, if_false]
      exact ⟨rfl, rfl, fun hu => (by cases hu)⟩

/-- Every command but typing leaves it alone. -/
theorem quiet_arrive (s : Session) (now : Nat) {a : Arrival} (h : ∀ r isTyping, a ≠ .command (.typing r isTyping)) :
    Quiet s (arrive now s a) := by
  by_cases hgone : s.released = true
  · cases a <;> (simp only [arrive, hgone, if_true]; exact quiet_self s)
  · cases a with
    | close =>
      simp only [arrive, hgone]
      exact ⟨rfl, rfl, id⟩
    | command c =>
      simp only [arrive, hgone]
      cases c with
      | ping => exact ⟨rfl, rfl, id⟩
      | auth token =>
        rcases token with _ | u
        · exact quiet_self s
        · exact quiet_authenticate s u
      | subscribe r visible =>
        by_cases hvisible : (s.currentUser.isSome && visible) = true
        · simp only [handle, hvisible, if_true]
          exact quiet_subscribe s r
        · simp only [handle, hvisible]
          exact quiet_self s
      | unsubscribe r =>
        show Quiet s ((s.unsubscribe r).attend none)
        obtain ⟨hsent, htyping, huser⟩ := quiet_attend (s.unsubscribe r) none
        exact ⟨hsent, htyping, huser⟩
      | focus room => exact quiet_attend s room
      | typing r isTyping => exact absurd rfl (h r isTyping)
      | sendMessage r =>
        by_cases hsub : (s.currentUser.isSome && s.isSubscribed r) = true
        · simp only [handle, Session.sendMessage, hsub, if_true]
          exact quiet_attend s (some r)
        · simp only [handle, Session.sendMessage, hsub]
          exact quiet_self s
      | react => exact quiet_self s
      | unreact => exact quiet_self s

/-- May the connection speak of typing in the room at all? -/
def Session.heard (s : Session) (r : RoomId) : Bool := !s.released && s.currentUser.isSome && s.isSubscribed r

theorem arrive_typing_unheard (hunheard : s.heard r = false) (isTyping : Bool) (now : Nat) :
    arrive now s (.command (.typing r isTyping)) = { session := s } := by
  by_cases hgone : s.released = true
  · simp [arrive, hgone]
  · rcases huser : s.currentUser with _ | u
    · simp [arrive, hgone, handle, Session.typing, huser]
    · have hsub : s.isSubscribed r = false := by simpa [Session.heard, hgone, huser] using hunheard
      simp [arrive, hgone, handle, Session.typing, huser, hsub]

/-- Does the throttle let the signal through? -/
def Session.lets (s : Session) (r : RoomId) (isTyping : Bool) (now : Nat) : Bool :=
  if isTyping then s.due r now else (s.typingSent.get r).isSome

theorem mayAnnounceTyping_eq (s : Session) (r : RoomId) (isTyping : Bool) (now : Nat) :
    (s.mayAnnounceTyping r isTyping now).1 = s.lets r isTyping now ∧
      (s.mayAnnounceTyping r isTyping now).2.currentUser = s.currentUser ∧
      (s.mayAnnounceTyping r isTyping now).2.typingSent =
        if isTyping then (if s.due r now then s.typingSent.set r now else s.typingSent) else s.typingSent.erase r := by
  unfold Session.mayAnnounceTyping Session.lets
  cases isTyping
  · exact ⟨rfl, rfl, rfl⟩
  · by_cases hdue : s.due r now = true <;> simp [hdue]

/-- Whether a typing signal goes out is up to what the connection remembers of the room. -/
theorem arrive_typing_heard (hheard : s.heard r = true) (isTyping : Bool) (now : Nat) :
    ∃ u, s.currentUser = some u ∧
      (arrive now s (.command (.typing r isTyping))).session.currentUser = some u ∧
      (arrive now s (.command (.typing r isTyping))).session.typingSent =
        (if isTyping then (if s.due r now then s.typingSent.set r now else s.typingSent) else s.typingSent.erase r) ∧
      (arrive now s (.command (.typing r isTyping))).typing =
        if s.lets r isTyping now then some ⟨r, u, isTyping, now⟩ else none := by
  obtain ⟨⟨hopen, hsome⟩, hsub⟩ : (s.released = false ∧ s.currentUser.isSome = true) ∧ s.isSubscribed r = true := by
    simpa [Session.heard] using hheard
  obtain ⟨u, huser⟩ := Option.isSome_iff_exists.1 hsome
  obtain ⟨hsent, -, hattended⟩ := typingSent_attend s (some r)
  obtain ⟨hmay, hkept, hnext⟩ := mayAnnounceTyping_eq (s.attend (some r)).session r isTyping now
  have hdue : (s.attend (some r)).session.due r now = s.due r now := by simp only [Session.due, hsent]
  have hlets : (s.attend (some r)).session.lets r isTyping now = s.lets r isTyping now := by
    simp only [Session.lets, hdue, hsent]
  rw [hlets] at hmay
  rw [hdue, hsent] at hnext
  simp only [arrive, hopen, handle, Session.typing, huser, hsub, if_true, Bool.false_eq_true, if_false]
  refine ⟨u, rfl, hkept.trans (hattended.trans huser), hnext, ?_⟩
  rw [← hmay]

end One

/-! ## Over a run -/

namespace Typist

variable {σ : Typist} {r : RoomId} {e : Typing}

/-- What the connection remembers of each room is the start that has not been stopped yet, and nobody who is not
authenticated has published anything. -/
structure Ledger (σ : Typist) : Prop where
  past : ∀ e ∈ σ.published, e.sentAt ≤ σ.clock
  ordered : σ.published.Pairwise fun e e' => e.sentAt ≤ e'.sentAt
  sent : ∀ r, σ.session.typingSent.get r = ((lastOf r σ.published).filter fun e => e.isTyping).map fun e => e.sentAt
  anonymous : σ.session.currentUser = none → σ.published = []

theorem ledger_opened : Ledger opened :=
  ⟨fun e he => (by cases he), List.Pairwise.nil, fun _ => rfl, fun _ => rfl⟩

theorem Ledger.lit_eq (h : Ledger σ) (r : RoomId) : lit r σ.published = (σ.session.typingSent.get r).isSome := by
  rw [h.sent, lit]
  rcases lastOf r σ.published with _ | e
  · rfl
  · rcases htyping : e.isTyping with _ | _ <;> simp [Option.filter, htyping]

/-- Nothing of the kind arrived. -/
theorem Ledger.quiet (h : Ledger σ) {a : Arrival} (hquiet : Quiet σ.session (arrive σ.clock σ.session a)) :
    Ledger (σ.step (.arrives a)) ∧ (σ.step (.arrives a)).published = σ.published := by
  have hsame : (σ.step (.arrives a)).published = σ.published := by
    show σ.published ++ (arrive σ.clock σ.session a).typing.toList = _
    rw [hquiet.typing]
    exact List.append_nil _
  refine ⟨⟨?_, ?_, fun r => ?_, fun hnone => ?_⟩, hsame⟩
  · rw [hsame]
    exact h.past
  · rw [hsame]
    exact h.ordered
  · rw [hsame, ← h.sent]
    exact congrArg (fun sent => sent.get r) hquiet.sent
  · rw [hsame]
    exact h.anonymous (hquiet.user hnone)

/-- A signal went out, and what is remembered of its room follows it. -/
theorem Ledger.publish (h : Ledger σ) {σ' : Typist} (hclock : σ'.clock = σ.clock) (he : e.sentAt = σ.clock)
    (hpublished : σ'.published = σ.published ++ [e])
    (hsent : σ'.session.typingSent =
      if e.isTyping then σ.session.typingSent.set e.roomId e.sentAt else σ.session.typingSent.erase e.roomId)
    (huser : σ'.session.currentUser ≠ none) : Ledger σ' := by
  refine ⟨fun e' he' => ?_, ?_, fun r => ?_, fun hnone => absurd hnone huser⟩
  · rw [hpublished] at he'
    rcases List.mem_append.1 he' with he' | he'
    · rw [hclock]
      exact h.past e' he'
    · rw [List.mem_singleton.1 he', hclock, he]
  · rw [hpublished, List.pairwise_append]
    refine ⟨h.ordered, List.pairwise_singleton _ _, fun e' he' e'' he'' => ?_⟩
    rw [List.mem_singleton.1 he'', he]
    exact h.past e' he'
  · rw [hpublished, hsent, lastOf_append]
    -- the room it is about remembers a start and forgets it at a stop, and no other room is touched
    by_cases hr : e.roomId = r
    · subst hr
      rcases htyping : e.isTyping with _ | _ <;> simp [Option.filter, htyping]
    · rcases htyping : e.isTyping with _ | _
      · simp [Map.get_erase_of_ne hr, hr, h.sent]
      · simp [Map.get_set_of_ne hr, hr, h.sent]

/-- A typing signal goes out where the connection is heard and the throttle lets it, and nothing else does. -/
theorem Ledger.typing (h : Ledger σ) (r : RoomId) (isTyping : Bool) :
    Ledger (σ.step (.arrives (.command (.typing r isTyping)))) ∧
      if σ.session.heard r && σ.session.lets r isTyping σ.clock then
        ∃ u, (σ.step (.arrives (.command (.typing r isTyping)))).published = σ.published ++ [⟨r, u, isTyping, σ.clock⟩]
      else (σ.step (.arrives (.command (.typing r isTyping)))).published = σ.published := by
  rcases hheard : σ.session.heard r with _ | _
  · have hnothing := arrive_typing_unheard hheard isTyping σ.clock
    exact h.quiet (hnothing ▸ quiet_self σ.session)
  · obtain ⟨u, huser, hafter, hsent, htyping⟩ := arrive_typing_heard hheard isTyping σ.clock
    rw [Bool.true_and]
    by_cases hlets : σ.session.lets r isTyping σ.clock = true
    · rw [if_pos hlets] at htyping ⊢
      have hpublished : (σ.step (.arrives (.command (.typing r isTyping)))).published = σ.published ++ [⟨r, u, isTyping, σ.clock⟩] := by
        show σ.published ++ (arrive σ.clock σ.session _).typing.toList = _
        rw [htyping]
        rfl
      refine ⟨h.publish rfl rfl hpublished ?_ ?_, u, hpublished⟩
      · refine hsent.trans ?_
        cases isTyping
        · rfl
        · exact if_pos hlets
      · intro hnone
        cases hafter.symm.trans hnone
    · rw [if_neg hlets] at htyping ⊢
      have hnothing : (σ.step (.arrives (.command (.typing r isTyping)))).published = σ.published := by
        show σ.published ++ (arrive σ.clock σ.session _).typing.toList = _
        rw [htyping]
        exact List.append_nil _
      refine ⟨⟨?_, ?_, fun r' => ?_, fun hnone => ?_⟩, hnothing⟩
      · rw [hnothing]
        exact h.past
      · rw [hnothing]
        exact h.ordered
      · rw [hnothing, ← h.sent]
        show (arrive σ.clock σ.session _).session.typingSent.get r' = _
        rw [hsent]
        cases isTyping with
        | true => rw [if_pos rfl, if_neg (show ¬ σ.session.due r σ.clock = true from hlets)]
        | false =>
          -- nothing to forget
          have hget : σ.session.typingSent.get r = none := by simpa [Session.lets] using hlets
          rw [if_neg Bool.false_ne_true, Map.get_erase]
          split
          · rename_i hr
            rw [← hr, hget]
          · rfl
      · cases hafter.symm.trans hnone

theorem ledger_step (h : Ledger σ) (m : Moment) : Ledger (σ.step m) := by
  cases m with
  | tick passed => exact ⟨fun e he => (h.past e he).trans (Nat.le_add_right _ _), h.ordered, h.sent, h.anonymous⟩
  | arrives a =>
    by_cases htyping : ∃ r isTyping, a = .command (.typing r isTyping)
    · obtain ⟨r, isTyping, rfl⟩ := htyping
      exact (h.typing r isTyping).1
    · exact (h.quiet (quiet_arrive _ _ fun r isTyping ha => htyping ⟨r, isTyping, ha⟩)).1

/-- A start that goes out is a second after those before it: by the throttle if none of them was stopped. -/
theorem start_spaced_iff (h : Ledger σ) (hspaced : Throttled σ) (r : RoomId) :
    Throttled (σ.step (.arrives (.command (.typing r true)))) ↔
      (σ.session.heard r = true → lit r σ.published = false →
        ∀ e ∈ σ.published, e.roomId = r → e.isTyping = true → e.sentAt + typingInterval ≤ σ.clock) := by
  have hstep := (h.typing r true).2
  rw [h.lit_eq]
  unfold Throttled
  rcases hheard : σ.session.heard r with _ | _
  · rw [hheard, Bool.false_and, if_neg Bool.false_ne_true] at hstep
    rw [hstep]
    exact iff_of_true hspaced fun hno => (by cases hno)
  · rw [hheard, Bool.true_and] at hstep
    rcases hget : σ.session.typingSent.get r with _ | last
    · -- nothing is remembered of the room, so the start goes out
      rw [if_pos (by simp [Session.lets, Session.due, hget])] at hstep
      obtain ⟨u, hpublished⟩ := hstep
      rw [hpublished, spaced_append]
      constructor
      · exact fun hall _ _ e he hr htyping => hall.2 e he htyping rfl hr
      · exact fun hcond => ⟨hspaced, fun e he htyping _ hr => hcond rfl rfl e he hr htyping⟩
    · refine iff_of_true ?_ fun _ hlit => (by cases hlit)
      by_cases hdue : typingInterval ≤ σ.clock - last
      · rw [if_pos (by simp [Session.lets, Session.due, hget, hdue])] at hstep
        obtain ⟨u, hpublished⟩ := hstep
        rw [hpublished, spaced_append]
        -- what is remembered is the latest of the starts, so the throttle holds for all of them
        refine ⟨hspaced, fun e he _ _ hr => ?_⟩
        obtain ⟨e₁, hlast, rfl⟩ := Option.map_eq_some_iff.1 ((h.sent r).symm.trans hget)
        have hle := le_lastOf h.ordered (Option.filter_eq_some_iff.1 hlast).1 e he hr
        have hpos : 0 < typingInterval := by decide
        show e.sentAt + typingInterval ≤ σ.clock
        omega
      · rw [if_neg (by simp [Session.lets, Session.due, hget, hdue])] at hstep
        rw [hstep]
        exact hspaced

theorem stop_spaced (h : Ledger σ) (hspaced : Throttled σ) (r : RoomId) :
    Throttled (σ.step (.arrives (.command (.typing r false)))) := by
  have hstep := (h.typing r false).2
  unfold Throttled
  split at hstep
  · obtain ⟨u, hpublished⟩ := hstep
    rw [hpublished, spaced_append]
    exact ⟨hspaced, fun e _ _ htyping => (by cases htyping)⟩
  · rw [hstep]
    exact hspaced

/-- A stop goes out for a start exactly if the room is still followed. -/
theorem stop_matched_iff (h : Ledger σ) (r : RoomId) (hopen : σ.session.released = false) :
    ((∃ e, (σ.step (.arrives (.command (.typing r false)))).published = σ.published ++ [e] ∧ e.roomId = r ∧ e.isTyping = false) ↔
        lit r σ.published = true) ↔
      (lit r σ.published = true → σ.session.isSubscribed r = true) := by
  have hstep := (h.typing r false).2
  rw [show σ.session.lets r false σ.clock = lit r σ.published from (h.lit_eq r).symm] at hstep
  rcases hlit : lit r σ.published with _ | _
  · rw [hlit, Bool.and_false, if_neg Bool.false_ne_true] at hstep
    rw [hstep]
    simp
  · -- somebody published the start, and a connection does not stop being somebody's
    have hsome : σ.session.currentUser.isSome = true := by
      rcases huser : σ.session.currentUser with _ | u
      · rw [h.anonymous huser] at hlit
        cases hlit
      · rfl
    rw [hlit, Bool.and_true, Session.heard, hopen, hsome] at hstep
    rcases hsub : σ.session.isSubscribed r with _ | _
    · rw [hsub, if_neg (by decide)] at hstep
      rw [hstep]
      simp
    · rw [hsub, if_pos (by decide)] at hstep
      obtain ⟨u, hpublished⟩ := hstep
      exact iff_of_true (iff_of_true ⟨_, hpublished, rfl, rfl⟩ rfl) fun _ => rfl

theorem step_iff (h : Ledger σ) (hspaced : Throttled σ) (m : Moment) :
    StopsMatched σ m ∧ Throttled (σ.step m) ↔ Timely σ m := by
  by_cases htyping : ∃ r isTyping, m = .arrives (.command (.typing r isTyping))
  · obtain ⟨r, isTyping, rfl⟩ := htyping
    cases isTyping with
    | true =>
      rw [start_spaced_iff h hspaced]
      constructor
      · rintro ⟨-, hstart⟩
        refine ⟨fun r' heq hopen huser hsub => ?_, fun r' heq => (by cases heq)⟩
        cases heq
        exact hstart (by simp [Session.heard, hopen, huser, hsub])
      · intro htimely
        refine ⟨fun r' heq => (by cases heq), fun hheard => ?_⟩
        obtain ⟨⟨hopen, huser⟩, hsub⟩ : (σ.session.released = false ∧ σ.session.currentUser.isSome = true) ∧
            σ.session.isSubscribed r = true := by simpa [Session.heard] using hheard
        exact htimely.starts r rfl hopen huser hsub
    | false =>
      rw [and_iff_left (stop_spaced h hspaced r)]
      constructor
      · intro hmatched
        refine ⟨fun r' heq => (by cases heq), fun r' heq hopen => ?_⟩
        cases heq
        exact (stop_matched_iff h r hopen).1 (hmatched r rfl hopen)
      · intro htimely r' heq hopen
        cases heq
        exact (stop_matched_iff h r hopen).2 (htimely.stops r rfl hopen)
  · have hpublished : (σ.step m).published = σ.published := by
      cases m with
      | tick passed => rfl
      | arrives a => exact (h.quiet (quiet_arrive _ _ fun r isTyping ha => htyping ⟨r, isTyping, congrArg _ ha⟩)).2
    refine iff_of_true ⟨fun r heq => absurd ⟨r, false, heq⟩ htyping, ?_⟩
      ⟨fun r heq => absurd ⟨r, true, heq⟩ htyping, fun r heq => absurd ⟨r, false, heq⟩ htyping⟩
    unfold Throttled
    rw [hpublished]
    exact hspaced

/-- Over every run of a connection, at most one start a second is published in a room and every stop that is asked for is
published exactly if a start was since the last stop, in exactly the runs in which a start that follows a stop comes a
second after the start before, and a stop that ends a start comes while the room is followed. -/
theorem throttled_along_iff (ms : List Moment) :
    Always step Throttled opened ms ∧ Along step StopsMatched opened ms ↔ Along step Timely opened ms :=
  always_along_iff (J := Ledger) (fun _ m h => ledger_step h m) (fun _ m h hspaced => step_iff h hspaced m) ledger_opened
    List.Pairwise.nil

/-! ## Twice in a second -/

/-- Somebody in a room starts typing, stops, and starts again a fifth of a second later. -/
def startsAgain : List Moment :=
  [.arrives (.command (.auth (some ⟨7⟩))), .arrives (.command (.subscribe ⟨10⟩ true)),
    .arrives (.command (.typing ⟨10⟩ true)), .tick 100000000, .arrives (.command (.typing ⟨10⟩ false)), .tick 100000000,
    .arrives (.command (.typing ⟨10⟩ true))]

/-- Somebody starts typing, leaves the room, and stops. -/
def leavesTyping : List Moment :=
  [.arrives (.command (.auth (some ⟨7⟩))), .arrives (.command (.subscribe ⟨10⟩ true)),
    .arrives (.command (.typing ⟨10⟩ true)), .arrives (.command (.unsubscribe ⟨10⟩)),
    .arrives (.command (.typing ⟨10⟩ false))]

/-- The room is told twice within the second; and it is never told of the stop. -/
theorem started_twice : ¬ Always step Throttled opened startsAgain ∧ ¬ Along step StopsMatched opened leavesTyping := by
  constructor
  · intro h
    have hspaced : Spaced [⟨⟨10⟩, ⟨7⟩, true, 0⟩, ⟨⟨10⟩, ⟨7⟩, false, 100000000⟩, ⟨⟨10⟩, ⟨7⟩, true, 200000000⟩] := h.last
    exact absurd ((List.pairwise_cons.1 hspaced).1 ⟨⟨10⟩, ⟨7⟩, true, 200000000⟩ (by simp) rfl rfl rfl) (by decide)
  · intro h
    have hsplit : Along step StopsMatched opened (leavesTyping.take 4 ++ leavesTyping.drop 4) := h
    obtain ⟨e, he, -, -⟩ := ((along_append.1 hsplit).2.1 ⟨10⟩ rfl rfl).2 (by decide)
    have hnothing : (run step opened leavesTyping).published = (run step opened (leavesTyping.take 4)).published := by decide
    have hlength := congrArg List.length (hnothing.symm.trans he)
    rw [List.length_append, List.length_singleton] at hlength
    omega

end Typist

end Genzh.Api.Ws
