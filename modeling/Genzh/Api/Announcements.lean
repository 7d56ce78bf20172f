/-
Telling everybody that somebody came or went. A socket moves the count of a user at the presence store and then, if that
made them come or go, broadcasts it; between the two, other sockets may do both. A socket says nothing else and takes no
frame before its broadcast is out.

`announced_right_iff`: whenever no broadcast about a user is under way, the last one said whether they are online, exactly
as long as nobody broadcasts that a user went, as the last broadcast under way about them, while the store counts them.
-/
import Genzh.Api.Presence

namespace Genzh.Api

open Genzh.Lib Genzh.Domain Genzh.Infrastructure

/-- `PresenceChanged` of a user. -/
structure PresenceChanged where
  userId : UserId
  online : Bool
  deriving DecidableEq, Repr

/-- The sockets and the store, what each socket is about to broadcast, and what was. -/
structure Announcing (I : Type*) where
  presence : Presence I
  pending : I → Option PresenceChanged
  broadcasts : List PresenceChanged

namespace Announcing

variable {I : Type*} [DecidableEq I]

/-- Nobody has connected yet. -/
def start : Announcing I := ⟨.start, fun _ => none, []⟩

/-- What a socket announces about the call to the store it is at. -/
def announcement (p : Presence I) (i : I) : Option PresenceChanged :=
  (p.sockets i).call.bind fun c => (c.1.record c.2 p.store).1.announcedState.map fun online => ⟨c.2, online⟩

/-- A frame is taken, or a socket takes its turn: its broadcast, if it has one to make, and else its call. -/
def step (w : Announcing I) : Presence.Event I → Announcing I
  | .frame i f => if (w.pending i).isSome then w else { w with presence := w.presence.step (.frame i f) }
  | .turn i =>
    match w.pending i with
    | some announced =>
      { w with pending := Function.update w.pending i none, broadcasts := w.broadcasts ++ [announced] }
    | none =>
      { w with
        presence := w.presence.step (.turn i)
        pending := Function.update w.pending i (announcement w.presence i) }

/-- What was said of a user last. -/
def lastSaid (w : Announcing I) (u : UserId) : Option Bool :=
  ((w.broadcasts.filter fun b => b.userId = u).getLast?).map (·.online)

/-- Is a broadcast about the user under way? -/
def UnderWay (w : Announcing I) (u : UserId) : Prop := ∃ i b, w.pending i = some b ∧ b.userId = u

/-- When no broadcast about the user is under way, the last one said whether the store counts a connection of theirs. A user
nothing was said of is offline. -/
def Told (u : UserId) (w : Announcing I) : Prop := ¬ w.UnderWay u → ((w.lastSaid u).getD false = true ↔ 0 < w.presence.store.count u)

/-- Whoever broadcasts that the user went offline does so while that is true, or with another broadcast about them to
come. -/
def NotStale (u : UserId) (w : Announcing I) : Presence.Event I → Prop
  | .frame .. => True
  | .turn i => ∀ b, w.pending i = some b → b.userId = u → b.online = false →
    w.presence.store.count u = 0 ∨ ∃ j c, j ≠ i ∧ w.pending j = some c ∧ c.userId = u

section Steps

variable {w : Announcing I} {i : I} {u : UserId} {b : PresenceChanged}

theorem step_frame_of_pending (f : Frame) (h : (w.pending i).isSome = true) : w.step (.frame i f) = w := if_pos h

theorem step_frame_of_free (f : Frame) (h : w.pending i = none) :
    w.step (.frame i f) = { w with presence := w.presence.step (.frame i f) } := by
  refine if_neg ?_
  rw [h]
  exact Bool.false_ne_true

theorem step_broadcast (h : w.pending i = some b) : w.step (.turn i) =
    { w with pending := Function.update w.pending i none, broadcasts := w.broadcasts ++ [b] } := by
  unfold step
  simp only [h]

theorem step_call (h : w.pending i = none) : w.step (.turn i) =
    { w with
      presence := w.presence.step (.turn i)
      pending := Function.update w.pending i (announcement w.presence i) } := by
  unfold step
  simp only [h]

omit [DecidableEq I] in
theorem lastSaid_broadcast (broadcasts : List PresenceChanged) (pending : I → Option PresenceChanged) (p : Presence I) :
    lastSaid ⟨p, pending, broadcasts ++ [b]⟩ u = if b.userId = u then some b.online else lastSaid ⟨p, pending, broadcasts⟩ u := by
  unfold lastSaid
  rw [List.filter_append, List.filter_singleton]
  by_cases h : b.userId = u <;> simp [h]

end Steps

/-! ## Who announces what -/

variable [Fintype I]

/-- A socket that is about to say that a user came stands for them at the store. -/
structure Accounted (w : Announcing I) : Prop where
  right : w.presence.Right
  standing : ∀ i b, w.pending i = some b → b.online = true → (w.presence.sockets i).counted = some b.userId

variable {w : Announcing I} {i : I} {u : UserId}

omit [DecidableEq I] in
theorem accounted_start : Accounted (start : Announcing I) where
  right := Presence.right_start
  standing i b h := by cases h

omit [Fintype I] in
/-- A call whose change is announced as coming online is that of a socket which opens. -/
theorem counted_of_announcement {p : Presence I} {b : PresenceChanged} (h : announcement p i = some b) (hon : b.online = true) :
    ((p.step (.turn i)).sockets i).counted = some b.userId := by
  unfold announcement at h
  obtain ⟨⟨connection, user⟩, hcall, hannounced⟩ := Option.bind_eq_some_iff.1 h
  obtain ⟨online, hstate, rfl⟩ := Option.map_eq_some_iff.1 hannounced
  rw [Presence.step_call hcall]
  change (Function.update p.sockets i (p.sockets i).returned i).counted = some user
  rw [Function.update_self]
  cases connection with
  | opened => exact (Socket.counted_opened hcall).2
  | closed =>
    -- a connection that closes is at most announced as going offline
    simp only [Connection.record, InMemoryPresenceStore.change_disconnect] at hstate
    have hon : online = true := hon
    subst hon
    split at hstate <;> cases hstate

theorem Accounted.step (h : Accounted w) (e : Presence.Event I) : Accounted (w.step e) := by
  cases e with
  | frame i f =>
    rcases hpending : w.pending i with _ | b
    · rw [step_frame_of_free f hpending]
      refine ⟨h.right.step (.frame i f), fun j b hj hon => ?_⟩
      have hne : j ≠ i := by
        rintro rfl
        have hj : w.pending j = some b := hj
        rw [hpending] at hj
        cases hj
      change (Function.update w.presence.sockets i ((w.presence.sockets i).handle f) j).counted = some b.userId
      rw [Function.update_of_ne hne]
      exact h.standing j b hj hon
    · rw [step_frame_of_pending f (by rw [hpending]; rfl)]
      exact h
  | turn i =>
    rcases hpending : w.pending i with _ | b
    · rw [step_call hpending]
      refine ⟨h.right.step (.turn i), fun j b hj hon => ?_⟩
      by_cases hij : j = i
      · subst hij
        have hj : Function.update w.pending j (announcement w.presence j) j = some b := hj
        rw [Function.update_self] at hj
        exact counted_of_announcement hj hon
      · have hj : Function.update w.pending i (announcement w.presence i) j = some b := hj
        rw [Function.update_of_ne hij] at hj
        rw [← h.standing j b hj hon]
        -- the socket that calls is another
        rcases hcall : (w.presence.sockets i).call with _ | ⟨connection, user⟩
        · unfold Presence.step
          simp only [hcall]
        · rw [Presence.step_call hcall]
          exact congrArg Socket.counted (Function.update_of_ne hij _ _)
    · rw [step_broadcast hpending]
      refine ⟨h.right, fun j b hj hon => ?_⟩
      by_cases hij : j = i
      · subst hij
        have hj : Function.update w.pending j none j = some b := hj
        rw [Function.update_self] at hj
        cases hj
      · have hj : Function.update w.pending i none j = some b := hj
        rw [Function.update_of_ne hij] at hj
        exact h.standing j b hj hon

omit [DecidableEq I] in
/-- Somebody who is about to be announced is online. -/
theorem Accounted.online (h : Accounted w) {b : PresenceChanged} (hb : w.pending i = some b) (hon : b.online = true) :
    0 < w.presence.store.count b.userId := by
  rw [h.right.count]
  exact System.tally_pos (h.standing i b hb hon)

/-! ## What was said last -/

omit [Fintype I] in
/-- A call that announces nothing about a user leaves them online, or offline. -/
theorem online_of_unannounced {p : Presence I} (h : ∀ b, announcement p i = some b → b.userId ≠ u) :
    0 < (p.step (.turn i)).store.count u ↔ 0 < p.store.count u := by
  rcases hcall : (p.sockets i).call with _ | ⟨connection, user⟩
  · unfold Presence.step
    simp only [hcall]
  rw [Presence.step_call hcall]
  by_cases hu : user = u
  · subst hu
    have hunchanged : (connection.record user p.store).1.announcedState = none := by
      rcases hstate : (connection.record user p.store).1.announcedState with _ | online
      · rfl
      · refine absurd rfl (h ⟨user, online⟩ ?_)
        unfold announcement
        rw [hcall, Option.bind_some, hstate]
        rfl
    cases connection with
    | opened =>
      simp only [Connection.record, InMemoryPresenceStore.change_connect] at hunchanged
      simp only [Connection.record, InMemoryPresenceStore.count_connect, if_true]
      have hcounted : p.store.count user ≠ 0 := by
        intro hzero
        rw [if_pos hzero] at hunchanged
        cases hunchanged
      omega
    | closed =>
      simp only [Connection.record, InMemoryPresenceStore.change_disconnect] at hunchanged
      simp only [Connection.record, InMemoryPresenceStore.count_disconnect, if_true]
      have hothers : p.store.count user ≠ 1 := by
        intro hone
        rw [if_pos hone] at hunchanged
        cases hunchanged
      omega
  · cases connection with
    | opened => simp only [Connection.record, InMemoryPresenceStore.count_connect, if_neg hu, Nat.add_zero]
    | closed => simp only [Connection.record, InMemoryPresenceStore.count_disconnect, if_neg hu, Nat.sub_zero]

omit [Fintype I] in
/-- What is under way once what one socket has to say has changed. -/
theorem underWay_update {w w' : Announcing I} {i : I} {o : Option PresenceChanged} (h : w'.pending = Function.update w.pending i o) :
    w'.UnderWay u ↔ (∃ b, o = some b ∧ b.userId = u) ∨ ∃ j b, j ≠ i ∧ w.pending j = some b ∧ b.userId = u := by
  unfold UnderWay
  rw [h]
  constructor
  · rintro ⟨j, b, hj, hu⟩
    by_cases hne : j = i
    · subst hne
      exact .inl ⟨b, by rwa [Function.update_self] at hj, hu⟩
    · exact .inr ⟨j, b, hne, by rwa [Function.update_of_ne hne] at hj, hu⟩
  · rintro (⟨b, ho, hu⟩ | ⟨j, b, hne, hj, hu⟩)
    · exact ⟨i, b, (Function.update_self ..).trans ho, hu⟩
    · exact ⟨j, b, (Function.update_of_ne hne ..).trans hj, hu⟩

/-- The last broadcast about a user that was under way has to be true; any other step keeps what was said last. -/
theorem told_step_iff (h : Accounted w) (ht : w.Told u) (e : Presence.Event I) : (w.step e).Told u ↔ w.NotStale u e := by
  cases e with
  | frame i f =>
    refine iff_of_true ?_ trivial
    rcases hpending : w.pending i with _ | b
    · rw [step_frame_of_free f hpending]
      exact ht
    · rw [step_frame_of_pending f (by rw [hpending]; rfl)]
      exact ht
  | turn i =>
    rcases hpending : w.pending i with _ | b
    · -- a call: whatever it announces is still to be said
      refine iff_of_true ?_ fun b hb => ?_
      · rw [step_call hpending]
        intro hnone
        rw [underWay_update rfl, not_or] at hnone
        have hsettled : ¬ w.UnderWay u := by
          rintro ⟨j, b, hj, hu⟩
          refine hnone.2 ⟨j, b, ?_, hj, hu⟩
          rintro rfl
          cases hpending.symm.trans hj
        exact (ht hsettled).trans (online_of_unannounced fun b hb hu => hnone.1 ⟨b, hb, hu⟩).symm
      · rw [hpending] at hb
        cases hb
    · rw [step_broadcast hpending]
      unfold Told
      rw [lastSaid_broadcast]
      by_cases hu : b.userId = u
      · by_cases hmore : ∃ j c, j ≠ i ∧ w.pending j = some c ∧ c.userId = u
        · -- another broadcast about the user is to come
          refine iff_of_true (fun hnone => ?_) fun _ _ _ _ => .inr hmore
          exact absurd ((underWay_update rfl).2 (.inr hmore)) hnone
        · have hsettled : ¬ UnderWay { w with
              pending := Function.update w.pending i none, broadcasts := w.broadcasts ++ [b] } u := by
            rw [underWay_update rfl]
            rintro (⟨c, hc, -⟩ | hother)
            · cases hc
            · exact hmore hother
          rw [if_pos hu, Option.getD_some]
          constructor
          · rintro hsaid c hc - hoff
            obtain rfl : b = c := Option.some.inj (hpending.symm.trans hc)
            have hcount := (hsaid hsettled).not.1 (by rw [hoff]; exact Bool.false_ne_true)
            exact .inl (Nat.eq_zero_of_not_pos hcount)
          · intro hcurrent _
            rcases honline : b.online
            · refine iff_of_false Bool.false_ne_true ?_
              rcases hcurrent b hpending hu honline with hzero | hother
              · exact Nat.not_lt.2 (Nat.le_of_eq hzero)
              · exact absurd hother hmore
            · exact iff_of_true rfl (hu ▸ h.online hpending honline)
      · -- a broadcast about somebody else
        refine iff_of_true (fun hnone => ?_) fun c hc hcu _ => ?_
        · rw [if_neg hu]
          refine ht ?_
          rintro ⟨j, c, hj, hc⟩
          refine hnone ((underWay_update rfl).2 (.inr ⟨j, c, ?_, hj, hc⟩))
          rintro rfl
          obtain rfl : b = c := Option.some.inj (hpending.symm.trans hj)
          exact hu hc
        · obtain rfl : b = c := Option.some.inj (hpending.symm.trans hc)
          exact absurd hcu hu

/-- Has every socket made its calls and its broadcasts? -/
def Finished (w : Announcing I) : Prop := ∀ i, w.pending i = none ∧ (w.presence.sockets i).atRest = true

/-- Over any interleaving, the last broadcast about a user says whether they are online whenever none is under way, and so
once all is done, exactly as long as nobody is said to be offline, as the last thing under way about them, while they are
online. -/
theorem announced_right_iff (es : List (Presence.Event I)) (u : UserId) :
    (Always step (Told u) start es ↔ Along step (NotStale u) start es) ∧
    (Along step (NotStale u) start es → Always step
      (fun w => Finished w → ((w.lastSaid u).getD false = true ↔ 0 < w.presence.store.count u)) start es) := by
  have hstart : (start : Announcing I).Told u := fun _ => iff_of_false Bool.false_ne_true (Nat.lt_irrefl 0)
  have hiff : Always step (Told u) (start : Announcing I) es ↔ Along step (NotStale u) start es :=
    always_iff_along (fun _ e h => h.step e) (fun _ e h ht => told_step_iff h ht e) accounted_start hstart
  refine ⟨hiff, fun hsteps => (hiff.2 hsteps).mono fun w htold hfinished => htold ?_⟩
  rintro ⟨i, b, hb, -⟩
  rw [(hfinished i).1] at hb
  cases hb

/-- A tab closes, and another of the same user opens before the first has said so. -/
def reload : List (Presence.Event Bool) :=
  [.frame false (.auth (some ⟨1⟩)), .turn false, .turn false, .frame false .close, .turn false,
    .frame true (.auth (some ⟨1⟩)), .turn true, .turn true, .turn false]

/-- In the end the user is said to be offline, and is online. -/
theorem reload_told_offline : Finished (run step start reload) ∧ (run step start reload).lastSaid ⟨1⟩ = some false ∧
    (run step start reload).presence.store.count ⟨1⟩ = 1 := by
  unfold Finished
  decide +kernel

end Announcing

end Genzh.Api
