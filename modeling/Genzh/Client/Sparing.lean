/-
What an orderly client keeps, and what its actions spare for that: with no two calls of one conversation to do with, the
call that is out, if it is what is shown, is the one whose room was joined, or none was; whoever sees it wait has seen
nobody there; and the call of `start` that has not ended is the last.
-/
import Genzh.Client.Call

namespace Genzh.Client.Calls

open Genzh.Domain

variable {U : Type}

namespace CallProvider

/-! ## Invariant -/

/-- A call of one's own that has been shown. -/
def Past (u : U) (starts : List (Start U)) (c : CallRef U) : Prop :=
  c.caller = u ∧ ∃ s, starts[c.number]? = some s ∧ (s.stage = .ringing ∨ s.stage = .ended)

/-- What holds of a call of `start` that has not ended. -/
structure Latest (u : U) (x : CallProvider U) (n : Nat) (s : Start U) : Prop where
  last : n + 1 = x.starts.length
  joined : ∀ d ∈ x.joined, d = ⟨u, n, s.roomId⟩
  active : ∀ r ∈ x.voice.activeRoomId, r = s.roomId
  outgoing : s.stage = .ringing → ∀ call ∈ x.outgoing, call.call = ⟨u, n, s.roomId⟩

structure Sound (u : U) (x : CallProvider U) : Prop where
  /-- Nobody was seen in the room of a call that is out. -/
  unanswered : ∀ call ∈ x.outgoing, x.shown.answered = false
  active : ∀ call ∈ x.outgoing, ∀ r ∈ x.shown.activeRoomId, r = call.call.roomId
  joined : ∀ d ∈ x.joined, x.voice.activeRoomId = some d.roomId ∧ x.voice.Left
  starting : ∀ (n : Nat) (s : Start U), x.starts[n]? = some s → s.stage ≠ .ended → Latest u x n s
  incoming : ∀ call ∈ x.shown.incoming, ∀ i ∈ x.incoming, i = call
  outgoingPast : ∀ call ∈ x.outgoing, Past u x.starts call.call
  shownPast : ∀ call ∈ x.shown.outgoing, Past u x.starts call.call
  cancelsPast : ∀ k ∈ x.cancels, Past u x.starts k.call

theorem Sound.new (u : U) : Sound u (CallProvider.new : CallProvider U) where
  unanswered _ h := by cases h
  active _ h := by cases h
  joined _ h := by cases h
  starting _ _ h := by cases h
  incoming _ h := by cases h
  outgoingPast _ h := by cases h
  shownPast _ h := by cases h
  cancelsPast _ h := by cases h

/-! ### Less than there was -/

section Sound

variable {u : U} {x : CallProvider U}

theorem Past.moved {starts starts' : List (Start U)} {c : CallRef U} (h : Past u starts c) (hm : Moved starts starts') :
    Past u starts' c := by
  obtain ⟨hcaller, s, hs, hpast⟩ := h
  exact ⟨hcaller, hm.forth _ s hs hpast⟩

theorem Past.concat {starts : List (Start U)} {c : CallRef U} {s : Start U} (h : Past u starts c) : Past u (starts ++ [s]) c := by
  obtain ⟨hcaller, s, hs, hpast⟩ := h
  exact ⟨hcaller, s, Voice.concat_some.2 (.inl hs), hpast⟩

/-- A client with no more calls than before, whose voice room was at most left, is as sound as before. -/
theorem Sound.less {x' : CallProvider U} (h : Sound u x) (hshown : x'.shown = x.shown) (hincoming : ∀ i ∈ x'.incoming, i ∈ x.incoming)
    (houtgoing : ∀ call ∈ x'.outgoing, call ∈ x.outgoing) (hactive : ∀ r ∈ x'.voice.activeRoomId, r ∈ x.voice.activeRoomId)
    (hjoined : ∀ d ∈ x'.joined, d ∈ x.joined ∧ x'.voice.activeRoomId = x.voice.activeRoomId ∧ x'.voice.leaves = x.voice.leaves)
    (hmoved : Moved x.starts x'.starts) (hcancels : ∀ k ∈ x'.cancels, Past u x.starts k.call) : Sound u x' where
  unanswered call hcall := by
    rw [hshown]
    exact h.unanswered call (houtgoing call hcall)
  active call hcall := by
    rw [hshown]
    exact h.active call (houtgoing call hcall)
  joined d hd := by
    obtain ⟨hold, hroom, hleaves⟩ := hjoined d hd
    obtain ⟨hactive, hleft⟩ := h.joined d hold
    refine ⟨hroom.trans hactive, ?_⟩
    intro l hl
    exact hleft l (hleaves ▸ hl)
  starting n s hs hwaits := by
    obtain ⟨s₀, hs₀, hroom, hstage, hringing⟩ := hmoved.back n s hs
    have hlatest := h.starting n s₀ hs₀ (hstage hwaits)
    constructor
    · rw [hmoved.length]
      exact hlatest.last
    · intro d hd
      rw [hroom]
      exact hlatest.joined d (hjoined d hd).1
    · intro r hr
      rw [hroom]
      exact hlatest.active r (hactive r hr)
    · intro hrings call hcall
      rw [hroom]
      exact hlatest.outgoing (hringing hrings) call (houtgoing call hcall)
  incoming call hcall i hi := by
    rw [hshown] at hcall
    exact h.incoming call hcall i (hincoming i hi)
  outgoingPast call hcall := (h.outgoingPast call (houtgoing call hcall)).moved hmoved
  shownPast call hcall := by
    rw [hshown] at hcall
    exact (h.shownPast call hcall).moved hmoved
  cancelsPast k hk := (hcancels k hk).moved hmoved

theorem Sound.same {voice : Voice.VoiceRoom} {participants : List U} {incomingTimer outgoingTimer : Bool} (h : Sound u x)
    (hactive : voice.activeRoomId = x.voice.activeRoomId) (hleaves : voice.leaves = x.voice.leaves) :
    Sound u { x with voice, participants, incomingTimer, outgoingTimer } := by
  refine h.less rfl (fun _ hi => hi) (fun _ hcall => hcall) ?_ (fun _ hd => ⟨hd, hactive, hleaves⟩) (moved_refl _) h.cancelsPast
  intro r hr
  rwa [← hactive]

theorem Sound.moved {starts : List (Start U)} (h : Sound u x) (hm : Moved x.starts starts) : Sound u { x with starts } :=
  h.less rfl (fun _ hi => hi) (fun _ hcall => hcall) (fun _ hr => hr) (fun _ hd => ⟨hd, rfl, rfl⟩) hm h.cancelsPast

theorem Sound.cancels {cancels : List (Cancel U)} (h : Sound u x) (hcancels : ∀ k ∈ cancels, Past u x.starts k.call) :
    Sound u { x with cancels } :=
  h.less rfl (fun _ hi => hi) (fun _ hcall => hcall) (fun _ hr => hr) (fun _ hd => ⟨hd, rfl, rfl⟩) (moved_refl _) hcancels

theorem Sound.dropIncoming (h : Sound u x) : Sound u { x with incoming := none } :=
  h.less rfl (fun _ hi => by cases hi) (fun _ hcall => hcall) (fun _ hr => hr) (fun _ hd => ⟨hd, rfl, rfl⟩) (moved_refl _) h.cancelsPast

theorem Sound.dropOutgoing (h : Sound u x) : Sound u { x with outgoing := none } :=
  h.less rfl (fun _ hi => hi) (fun _ hcall => by cases hcall) (fun _ hr => hr) (fun _ hd => ⟨hd, rfl, rfl⟩) (moved_refl _) h.cancelsPast

theorem Sound.leave (h : Sound u x) : Sound u x.leave := by
  refine h.less rfl (fun _ hi => hi) (fun _ hcall => hcall) ?_ (fun _ hd => by cases hd) (moved_refl _) h.cancelsPast
  intro r hr
  rcases Voice.activeRoomId_leave x.voice with hnone | hsame
  · rw [show x.leave.voice.activeRoomId = none from hnone] at hr
    cases hr
  · rwa [show x.leave.voice.activeRoomId = x.voice.activeRoomId from hsame] at hr

theorem Sound.giveUp {call : OutgoingCall U} {waits : Option Nat} (h : Sound u x) (ho : x.shown.outgoing = some call) :
    Sound u (x.giveUp call.call waits) := by
  have hcancels : Sound u { x with cancels := x.cancels ++ [{ call := call.call, stage := .leaving waits }] } := by
    refine h.cancels fun k hk => ?_
    rcases List.mem_append.1 hk with hold | hnew
    · exact h.cancelsPast k hold
    · rw [List.mem_singleton.1 hnew]
      exact h.shownPast call ho
  exact hcancels.dropOutgoing.leave

theorem Sound.moveCancel {m : Nat} {stage : CancelStage} (h : Sound u x) : Sound u (x.moveCancel m stage) := by
  refine h.cancels fun k hk => ?_
  obtain ⟨i, hi⟩ := List.mem_iff_getElem?.1 hk
  rcases Voice.modify_some.1 hi with ⟨-, k, hold, rfl⟩ | ⟨-, hold⟩
  · exact h.cancelsPast k (List.mem_of_getElem? hold)
  · exact h.cancelsPast k (List.mem_of_getElem? hold)

/-- A call that has ended takes nothing away but itself. -/
theorem Sound.ended {roomId : RoomId} (h : Sound u x) : Sound u (x.ended roomId) := by
  obtain ⟨y, hy, hx⟩ := ended_cases roomId x
  have hincoming : Sound u y := by
    rcases hy with rfl | ⟨-, rfl⟩
    · exact h
    · exact h.dropIncoming
  rcases hx with hx | ⟨-, hx⟩ <;> rw [hx]
  · exact hincoming
  · exact hincoming.dropOutgoing.leave

/-! ### More than there was -/

/-- A Room is joined while nothing else is started or left. -/
theorem Sound.join {call : CallRef U} (h : Sound u x) (hfree : x.Free) : Sound u (x.join call) where
  unanswered := h.unanswered
  active := h.active
  joined d hd := by
    obtain rfl := Option.some.inj hd
    exact ⟨rfl, hfree.2⟩
  starting n s hs hwaits := absurd (hfree.1 s (List.mem_of_getElem? hs)) hwaits
  incoming := h.incoming
  outgoingPast := h.outgoingPast
  shownPast := h.shownPast
  cancelsPast := h.cancelsPast

theorem Sound.start {roomId : RoomId} {peerId : U} {peerName : String} {video : Bool} (h : Sound u x) (hfree : x.Free) :
    Sound u (x.start u roomId peerId peerName video) where
  unanswered := h.unanswered
  active := h.active
  joined d hd := by
    obtain rfl := Option.some.inj hd
    exact ⟨rfl, hfree.2⟩
  starting n s hs hwaits := by
    rcases Voice.concat_some.1 hs with hold | ⟨rfl, rfl⟩
    · exact absurd (hfree.1 s (List.mem_of_getElem? hold)) hwaits
    · constructor
      · show x.starts.length + 1 = (x.starts ++ [_]).length
        rw [List.length_append, List.length_singleton]
      · intro d hd
        exact (Option.some.inj hd).symm
      · intro r hr
        exact (Option.some.inj hr).symm
      · rintro ⟨⟩
  incoming := h.incoming
  outgoingPast call hcall := (h.outgoingPast call hcall).concat
  shownPast call hcall := (h.shownPast call hcall).concat
  cancelsPast k hk := (h.cancelsPast k hk).concat

/-- A call is shown that nobody was seen to answer yet. -/
theorem Sound.announce {n : Nat} {s : Start U} (h : Sound u x) (hs : x.starts[n]? = some s) (hannounces : s.announces = true)
    (hanswered : x.shown.answered = false) (hactive : x.shown.activeRoomId = x.voice.activeRoomId) :
    Sound u (x.announce u n s).1 := by
  have hlatest := h.starting n s hs (waits_of_announces hannounces).2
  have hpast : ∀ c, c.number = n ∨ Past u x.starts c → c.caller = u → Past u (x.starts.modify n fun s => { s with stage := .ringing }) c := by
    intro c hc hcaller
    by_cases hn : c.number = n
    · exact ⟨hcaller, _, Voice.modify_some.2 (.inl ⟨hn, s, hn ▸ hs, rfl⟩), .inl rfl⟩
    · obtain ⟨-, s', hs', hpast⟩ := hc.resolve_left hn
      exact ⟨hcaller, s', Voice.modify_some.2 (.inr ⟨hn, hs'⟩), hpast⟩
  constructor
  · intro call _
    exact hanswered
  · rintro call hcall r hr
    obtain rfl := Option.some.inj hcall
    exact hlatest.active r (hactive ▸ hr)
  · exact h.joined
  · intro k s' hs' hwaits
    have hk : k = n := by
      rcases Voice.modify_some.1 hs' with ⟨hk, -⟩ | ⟨-, hold⟩
      · exact hk
      · -- whatever else waits would be the last one too
        have hlast := (h.starting k s' hold hwaits).last
        have hlast' := hlatest.last
        omega
    subst hk
    obtain ⟨-, s₀, hs₀, rfl⟩ := (Voice.modify_some.1 hs').resolve_right fun hne => hne.1 rfl
    obtain rfl := Option.some.inj (hs₀.symm.trans hs)
    refine ⟨?_, hlatest.joined, hlatest.active, ?_⟩
    · exact hlatest.last.trans (List.length_modify ..).symm
    · rintro - call hcall
      obtain rfl := Option.some.inj hcall
      rfl
  · exact h.incoming
  · rintro call hcall
    obtain rfl := Option.some.inj hcall
    exact hpast _ (.inl rfl) rfl
  · intro call hcall
    have hold := h.shownPast call hcall
    exact hpast _ (.inr hold) hold.1
  · intro k hk
    have hold := h.cancelsPast k hk
    exact hpast _ (.inr hold) hold.1

theorem Sound.render (h : Sound u x) : Sound u (x.render u).1 where
  unanswered call hcall := by
    obtain ⟨hold, hseen, -⟩ := outgoing_of_render hcall
    have hunanswered := h.unanswered call hold
    show x.answered = false
    by_contra hanswered
    rw [hseen (Bool.eq_true_of_not_eq_false hanswered)] at hunanswered
    cases hunanswered
  active call hcall r hr := by
    obtain ⟨hold, -, hroom | hroom⟩ := outgoing_of_render hcall
    · exact h.active call hold r (hroom ▸ hr)
    · exact Option.some.inj (hr.symm.trans hroom)
  joined := h.joined
  starting n s hs hwaits := by
    obtain ⟨hlast, hjoined, hactive, houtgoing⟩ := h.starting n s hs hwaits
    refine ⟨hlast, hjoined, hactive, ?_⟩
    intro hrings call hcall
    exact houtgoing hrings call (outgoing_of_render hcall).1
  incoming call hcall i hi := Option.some.inj (hi.symm.trans hcall)
  outgoingPast call hcall := h.outgoingPast call (outgoing_of_render hcall).1
  shownPast := h.outgoingPast
  cancelsPast := h.cancelsPast

/-- The first ring stands, so that what rings and was shown to ring are one call. -/
theorem Sound.ringing [DecidableEq U] {call : IncomingCall U} (h : Sound u x) : Sound u (x.ringing u call) := by
  unfold CallProvider.ringing
  split
  · exact h
  split
  · exact h
  · rename_i hnone
    exact { h with
      incoming := fun i hi => absurd (Option.isSome_iff_exists.2 ⟨i, hi⟩) hnone
      starting := fun n s hs hwaits => by
        obtain ⟨hlast, hjoined, hactive, houtgoing⟩ := h.starting n s hs hwaits
        exact ⟨hlast, hjoined, hactive, houtgoing⟩ }

/-- What an action preserves. -/
theorem Sound.effect {a : Action U} {y : CallProvider U} {sent : List (Request U)} (h : Sound u x) (hready : x.Ready a)
    (e : Effect u x a y sent) : Sound u y := by
  cases e with
  | start => exact h.start hready
  | announced hs ha =>
    obtain ⟨hanswered, hactive⟩ := hready _ hs ha
    exact h.announce hs ha hanswered hactive
  | camera hs hj => exact h.moved (moved_camera hs hj)
  | rang hs hr => exact h.moved (moved_ringAnswered hs hr)
  | failed hs hr => exact (h.moved (moved_ringAnswered hs hr)).dropOutgoing.leave
  | accepted hi => exact h.dropIncoming.join (hready (Option.isSome_iff_exists.2 ⟨_, hi⟩))
  | declined hi => exact h.dropIncoming
  | @cancelled _ _ _ outgoingTimer ho ha =>
    have htimer : Sound u { x with outgoingTimer } := h.same rfl rfl
    exact htimer.giveUp ho
  | told hk hl => exact h.moveCancel
  | completed hk hn => exact h.moveCancel
  | missed =>
    have htimer : Sound u { x with incomingTimer := false } := h.same rfl rfl
    exact htimer.dropIncoming
  | rendered => exact h.render
  | left => exact h.leave
  | disconnected hj hv =>
    refine h.less rfl (fun _ hi => hi) (fun _ hcall => hcall) ?_ (fun _ hd => by cases hd) (moved_refl _) h.cancelsPast
    intro r hr
    rw [hv] at hr
    cases hr
  | stays hv hl hm => exact (h.moved hm).same hv hl

/-! ## What is told -/

/-- A call is only told of by a client that has to do with it, and rings only before it was shown. -/
theorem Effect.sent {a : Action U} {y : CallProvider U} {sent : List (Request U)} (e : Effect u x a y sent) {request : Request U}
    (h : request ∈ sent) :
    Mentions u x request.call ∧ (request.notice.isRing = true → request.call.caller = u ∧ ¬ Past u x.starts request.call) := by
  cases e with
  | start | camera | rang | failed | accepted | cancelled | completed | missed | left | disconnected | stays => cases h
  | @announced n s hs ha =>
    obtain ⟨hrings, hended⟩ := waits_of_announces ha
    rw [List.mem_singleton.1 h]
    refine ⟨.starting hs hended, ?_⟩
    rintro -
    refine ⟨rfl, ?_⟩
    rintro ⟨-, s', hs', hpast⟩
    obtain rfl := Option.some.inj (hs.symm.trans hs')
    exact hpast.elim hrings hended
  | declined hi =>
    rw [List.mem_singleton.1 h]
    refine ⟨.shownIncoming hi, ?_⟩
    rintro ⟨⟩
  | told hk hl =>
    rw [List.mem_singleton.1 h]
    refine ⟨.cancelling (List.mem_of_getElem? hk) hl, ?_⟩
    rintro ⟨⟩
  | rendered =>
    obtain ⟨call, hcall, rfl⟩ := List.mem_map.1 h
    have hout : x.outgoing = some call := (Option.mem_filter_iff.1 (Option.mem_toList.1 hcall)).1
    refine ⟨.outgoing hout, ?_⟩
    rintro ⟨⟩

theorem completed_of_moveCancel {m : Nat} {stage : CancelStage} {k' : Cancel U} (hk' : k' ∈ (x.moveCancel m stage).cancels) :
    k' ∈ x.cancels ∨ k'.stage = stage ∧ ∃ k, x.cancels[m]? = some k ∧ k'.call = k.call := by
  obtain ⟨i, hi⟩ := List.mem_iff_getElem?.1 hk'
  rcases Voice.modify_some.1 hi with ⟨rfl, k, hold, rfl⟩ | ⟨-, hold⟩
  · exact .inr ⟨rfl, k, hold, rfl⟩
  · exact .inl (List.mem_of_getElem? hold)

/-- A call of `cancel` completes once the other side was told, or could not be. -/
theorem Effect.completes {a : Action U} {y : CallProvider U} {sent : List (Request U)} (e : Effect u x a y sent) {k' : Cancel U}
    (hk' : k' ∈ y.cancels) (hcompleted : k'.stage = .completed) :
    k' ∈ x.cancels ∨ ∃ m k, a = .cancelAnswered m ∧ x.cancels[m]? = some k ∧ k.stage = .notifying ∧ k'.call = k.call := by
  cases e with
  | start | announced | camera | rang | failed | accepted | declined | missed | rendered | left | disconnected | stays => exact .inl hk'
  | cancelled ho ha =>
    rcases List.mem_append.1 hk' with hold | hnew
    · exact .inl hold
    · rw [List.mem_singleton.1 hnew] at hcompleted
      cases hcompleted
  | told hk hl =>
    refine (completed_of_moveCancel hk').imp_right ?_
    rintro ⟨hnotifying, -⟩
    rw [hnotifying] at hcompleted
    cases hcompleted
  | @completed m k hk hn =>
    refine (completed_of_moveCancel hk').imp_right ?_
    rintro ⟨-, k₀, hk₀, hcall⟩
    obtain rfl := Option.some.inj (hk₀.symm.trans hk)
    exact ⟨m, k₀, rfl, hk, hn, hcall⟩

/-! ## What is spared -/

/-- Once nobody was seen to be there, and that is what is shown, nobody is. -/
theorem Sound.sparesAnswered (h : Sound u x) (hready : x.Ready .outgoingTimeout) : SparesAnswered x := by
  intro htimer call hcall _ hpeer
  obtain ⟨houtgoing, hanswered, -⟩ := hready htimer (Option.isSome_iff_exists.2 ⟨call, hcall⟩)
  have hunanswered := h.unanswered call (houtgoing ▸ hcall)
  rw [hanswered] at hunanswered
  have hempty : x.participants = [] := List.isEmpty_iff.1 ((Bool.not_eq_false' _).mp hunanswered)
  rw [hempty] at hpeer
  cases hpeer

theorem spares_refl (c : CallRef U) (x : CallProvider U) : Spares c x x := ⟨fun _ h _ => h, fun _ h _ => h, fun _ h _ => h⟩

variable {c : CallRef U}

/-- No two calls of one conversation. -/
def Apart (u : U) (x : CallProvider U) : Prop := ∀ c c', Mentions u x c → Mentions u x c' → c.roomId = c'.roomId → c = c'

/-- Of what was rendered, the call that is out and the one whose room was joined are the same. -/
theorem Sound.same_call (h : Sound u x) (hapart : Apart u x) (hrendered : x.Rendered) {o : OutgoingCall U} (ho : x.shown.outgoing = some o) :
    (∀ call ∈ x.outgoing, call.call = o.call) ∧ ∀ d ∈ x.joined, d = o.call := by
  obtain ⟨houtgoing, -, hactive⟩ := hrendered
  rw [houtgoing] at ho
  constructor
  · intro call hcall
    exact congrArg OutgoingCall.call (Option.some.inj (hcall.symm.trans ho))
  · intro d hd
    have hroom : d.roomId = o.call.roomId := h.active o ho d.roomId (hactive.trans (h.joined d hd).1)
    exact hapart d o.call (.joined hd) (.outgoing ho) hroom

theorem Sound.spares_dropIncoming {incomingTimer : Bool} (h : Sound u x) {i : IncomingCall U} (hi : x.shown.incoming = some i) :
    Spares i.call x { x with incoming := none, incomingTimer } where
  incoming call hcall hne := absurd (congrArg IncomingCall.call (h.incoming i hi call hcall)) hne
  outgoing _ hcall _ := hcall
  joined _ hd _ := hd

/-- The call that is out is given up, and the Room left. -/
theorem spares_leave {y : CallProvider U} (hincoming : ∀ call ∈ x.incoming, call.call ≠ c → y.incoming = some call)
    (houtgoing : ∀ call ∈ x.outgoing, call.call = c) (hjoined : ∀ d ∈ x.joined, d = c) : Spares c x y.leave where
  incoming := hincoming
  outgoing call hcall hne := absurd (houtgoing call hcall) hne
  joined d hd hne := absurd (hjoined d hd) hne

/-- What one call ends with is no other's. -/
theorem Sound.spares_effect {a : Action U} {y : CallProvider U} {sent : List (Request U)} (h : Sound u x) (hapart : Apart u x)
    (hready : x.Ready a) (e : Effect u x a y sent) (hends : Ends u x c a) : Spares c x y := by
  cases e with
  | start | announced | camera | accepted | told | completed => exact hends.elim
  | rang => exact ⟨fun _ h _ => h, fun _ h _ => h, fun _ h _ => h⟩
  | @failed n s hs hr =>
    obtain ⟨-, s', hs', rfl⟩ := hends
    obtain rfl := Option.some.inj (hs.symm.trans hs')
    have hlatest := h.starting n s hs (by rw [hr]; rintro ⟨⟩)
    exact spares_leave (fun _ hcall _ => hcall) (hlatest.outgoing hr) hlatest.joined
  | declined hi =>
    obtain ⟨i, hi, rfl⟩ := hends
    exact h.spares_dropIncoming hi
  | missed =>
    obtain ⟨i, hi, rfl⟩ := hends
    exact h.spares_dropIncoming hi
  | @cancelled _ o waits outgoingTimer ho ha =>
    have hgiven : c = o.call ∧ x.Rendered := by
      rcases ha with rfl | ⟨rfl, htimer⟩
      · obtain ⟨o', ho', rfl⟩ := hends
        obtain rfl := Option.some.inj (ho.symm.trans ho')
        exact ⟨rfl, hready (Option.isSome_iff_exists.2 ⟨o, ho⟩)⟩
      · obtain ⟨o', ho', rfl⟩ := hends
        obtain rfl := Option.some.inj (ho.symm.trans ho')
        exact ⟨rfl, hready htimer (Option.isSome_iff_exists.2 ⟨o, ho⟩)⟩
    obtain ⟨rfl, hrendered⟩ := hgiven
    obtain ⟨houtgoing, hjoined⟩ := h.same_call hapart hrendered ho
    exact spares_leave (fun _ hcall _ => hcall) houtgoing hjoined
  | rendered =>
    obtain ⟨o, ho, rfl⟩ := hends
    refine ⟨fun _ h _ => h, ?_, fun _ h _ => h⟩
    intro call hcall hne
    exact absurd (congrArg OutgoingCall.call (Option.some.inj (hcall.symm.trans ho))) hne
  | left =>
    refine ⟨fun _ h _ => h, fun _ h _ => h, ?_⟩
    intro d hd hne
    exact absurd (Option.some.inj (hd.symm.trans hends)) hne
  | disconnected hj hv =>
    refine ⟨fun _ h _ => h, fun _ h _ => h, ?_⟩
    -- a Room that was joined since would have waited for this one
    intro d hd _
    cases (h.joined d hd).2 _ (List.mem_of_getElem? hj)
  | stays hv hl hm => exact ⟨fun _ h _ => h, fun _ h _ => h, fun _ h _ => h⟩

/-- A call that has ended takes no other's ring, and leaves no other's Room, once what it gives up is rendered. -/
theorem Sound.spares_ended (h : Sound u x) (hone : ∀ c', Mentions u x c' → c'.roomId = c.roomId → c' = c) (hapart : Apart u x)
    (hrendered : ∀ call ∈ x.shown.outgoing, call.call.roomId = c.roomId → x.Rendered) : Spares c x (x.ended c.roomId) := by
  obtain ⟨y, hy, hx⟩ := ended_cases c.roomId x
  have hincoming : Spares c x y := by
    rcases hy with rfl | ⟨⟨i, hi, hroom⟩, rfl⟩
    · exact spares_refl c y
    · rw [← hone i.call (.shownIncoming hi) hroom]
      exact h.spares_dropIncoming hi
  rcases hx with hx | ⟨⟨o, ho, hroom⟩, hx⟩ <;> rw [hx]
  · exact hincoming
  · have ho' : o.call = c := hone o.call (.shownOutgoing ho) hroom
    obtain ⟨houtgoing, hjoined⟩ := h.same_call hapart (hrendered o ho hroom) ho
    rw [ho'] at houtgoing hjoined
    exact spares_leave hincoming.incoming houtgoing hjoined

end Sound

end CallProvider

end Genzh.Client.Calls
