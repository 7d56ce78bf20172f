/-
Who is looking at which conversation right now. Attention is kept by connection and indexed both ways, by the room
for whoever asks who is reading it and by the connection for whoever moves on or hangs up. It goes stale: a
connection that has said nothing for a while stops counting as a reader, without leaving the indexes.
-/
import Genzh.Lib.Map
import Genzh.Lib.Run
import Genzh.Domain.Basic

namespace Genzh.Infrastructure

open Genzh.Lib Genzh.Domain

/-- One socket, for as long as it is open. -/
structure ConnectionId where
  id : UInt64
  deriving DecidableEq, Repr

/-- Who reads over a connection, and when it last said so. -/
structure Watcher where
  userId : UserId
  since : Nat
  deriving DecidableEq, Repr

/-- How long a connection's attention survives without a word from it, in nanoseconds. -/
def attentionTtl : Nat := 75 * 1000000000

/-- The watchers of each room, and the room of each connection. -/
structure Attention where
  byRoom : Map RoomId (Map ConnectionId Watcher)
  rooms : Map ConnectionId RoomId

namespace Attention

def empty : Attention := ⟨.empty, .empty⟩

/-- Detach a connection from whatever it was reading. -/
def remove (connection : ConnectionId) (inner : Attention) : Attention :=
  match inner.rooms.get connection with
  | none => inner
  | some roomId =>
    let inner := { inner with rooms := inner.rooms.erase connection }
    match inner.byRoom.get roomId with
    | none => inner
    | some watchers =>
      let watchers := watchers.erase connection
      if watchers.size = 0 then { inner with byRoom := inner.byRoom.erase roomId }
      else { inner with byRoom := inner.byRoom.set roomId watchers }

/-- This connection is reading `roomId`, and nothing else. -/
def focus (connection : ConnectionId) (userId : UserId) (roomId : RoomId) (now : Nat) (inner : Attention) : Attention :=
  let inner := inner.remove connection
  { rooms := inner.rooms.set connection roomId
    byRoom := inner.byRoom.set roomId (((inner.byRoom.get roomId).getD .empty).set connection { userId, since := now }) }

/-- This connection is reading nothing. -/
def blur (connection : ConnectionId) (inner : Attention) : Attention := inner.remove connection

/-- Still here. -/
def touch (connection : ConnectionId) (now : Nat) (inner : Attention) : Attention :=
  match inner.rooms.get connection with
  | none => inner
  | some roomId =>
    match inner.byRoom.get roomId with
    | none => inner
    | some watchers =>
      match watchers.get connection with
      | none => inner
      | some watcher => { inner with byRoom := inner.byRoom.set roomId (watchers.set connection { watcher with since := now }) }

/-- Which of `ids` are reading `roomId` right now. -/
def watching (roomId : RoomId) (ids : List UserId) (now : Nat) (inner : Attention) : List UserId :=
  match inner.byRoom.get roomId with
  | none => []
  | some watchers => ids.filter fun id => watchers.values.any fun w => w.userId = id && decide (now - w.since < attentionTtl)

/-- What is done to the store. A socket that goes away blurs its connection. -/
inductive Op where
  | focus (connection : ConnectionId) (userId : UserId) (roomId : RoomId) (now : Nat)
  | blur (connection : ConnectionId) (now : Nat)
  | touch (connection : ConnectionId) (now : Nat)
  deriving DecidableEq, Repr

namespace Op

def now : Op → Nat
  | focus _ _ _ now | blur _ now | touch _ now => now

/-- Does it say anew what `c` is reading? -/
def settles (c : ConnectionId) : Op → Bool
  | focus c' _ _ _ | blur c' _ => c' = c
  | touch _ _ => false

end Op

def step (inner : Attention) : Op → Attention
  | .focus c u r now => inner.focus c u r now
  | .blur c _ => inner.blur c
  | .touch c now => inner.touch c now

/-! ## The indexes -/

/-- What a room has about a connection. -/
def watcher (inner : Attention) (r : RoomId) (c : ConnectionId) : Option Watcher := (inner.byRoom.get r).bind fun ws => ws.get c

/-- The indexes are each other's inverse, and no room is kept that nobody reads. -/
structure Inverse (inner : Attention) : Prop where
  inverse : ∀ c r, inner.rooms.get c = some r ↔ ∃ w, inner.watcher r c = some w
  nonempty : ∀ r ws, inner.byRoom.get r = some ws → ∃ c w, ws.get c = some w

variable {inner : Attention} {c c' : ConnectionId} {u : UserId} {r r' : RoomId} {now : Nat}

theorem inverse_empty : Inverse empty := ⟨fun c r => by simp [empty, watcher], fun r ws h => by cases h⟩

/-- Each connection is in one room at most. -/
theorem Inverse.one_room (h : Inverse inner) {w w' : Watcher} (hw : inner.watcher r c = some w) (hw' : inner.watcher r' c = some w') :
    r = r' :=
  Option.some.inj (((h.inverse c r).2 ⟨w, hw⟩).symm.trans ((h.inverse c r').2 ⟨w', hw'⟩))

theorem watcher_eq {ws : Map ConnectionId Watcher} (h : inner.byRoom.get r = some ws) : inner.watcher r c = ws.get c := by
  rw [watcher, h, Option.bind_some]

theorem size_eq_zero {κ ν : Type} [DecidableEq κ] {m : Map κ ν} : m.size = 0 ↔ ∀ k, m.get k = none := by
  unfold Map.size
  rw [List.length_eq_zero_iff, Map.rows_eq_nil]

/-- A room that nobody reads any more goes, and one that somebody still reads stays. -/
theorem byRoom_remove {room : RoomId} {ws : Map ConnectionId Watcher} (hroom : inner.rooms.get c = some room)
    (hws : inner.byRoom.get room = some ws) (r : RoomId) : (inner.remove c).byRoom.get r =
      if room = r then if (ws.erase c).size = 0 then none else some (ws.erase c) else inner.byRoom.get r := by
  unfold remove
  simp only [hroom, hws]
  by_cases hlast : (ws.erase c).size = 0
  · rw [if_pos hlast, if_pos hlast]
    exact Map.get_erase
  · rw [if_neg hlast, if_neg hlast]
    exact Map.get_set

/-- Removing a connection takes it out of both indexes, and leaves the rest. -/
theorem remove_spec (h : Inverse inner) (c : ConnectionId) :
    (inner.remove c).rooms.get c = none ∧ (∀ c', c' ≠ c → (inner.remove c).rooms.get c' = inner.rooms.get c') ∧
      (∀ r c', (inner.remove c).watcher r c' = if c' = c then none else inner.watcher r c') ∧
      ∀ r ws, (inner.remove c).byRoom.get r = some ws → ∃ c' w, ws.get c' = some w := by
  rcases hroom : inner.rooms.get c with _ | room
  · have hnowhere : ∀ r, inner.watcher r c = none := by
      intro r
      rcases hw : inner.watcher r c with _ | w
      · rfl
      · rw [(h.inverse c r).2 ⟨w, hw⟩] at hroom
        cases hroom
    have hsame : inner.remove c = inner := by
      unfold remove
      rw [hroom]
    rw [hsame]
    refine ⟨hroom, fun _ _ => rfl, fun r c' => ?_, h.nonempty⟩
    split
    · rename_i heq
      rw [heq, hnowhere]
    · rfl
  · obtain ⟨w, hw⟩ := (h.inverse c room).1 hroom
    obtain ⟨ws, hws, -⟩ := Option.bind_eq_some_iff.1 hw
    have helse : ∀ r, r ≠ room → inner.watcher r c = none := by
      intro r hr
      rcases hw' : inner.watcher r c with _ | w'
      · rfl
      · exact absurd (h.one_room hw' hw) hr
    have hrooms : (inner.remove c).rooms = inner.rooms.erase c := by
      unfold remove
      simp only [hroom, hws]
      split
      · rfl
      · rfl
    refine ⟨?_, fun c' hc => ?_, fun r c' => ?_, fun r ws' hr => ?_⟩
    · rw [hrooms, Map.get_erase_self]
    · rw [hrooms, Map.get_erase_of_ne (Ne.symm hc)]
    · unfold watcher
      rw [byRoom_remove hroom hws]
      by_cases hr : room = r
      · subst hr
        -- a room that goes had no watcher left
        have hleft : (if (ws.erase c).size = 0 then none else some (ws.erase c)).bind (fun ws => ws.get c') =
            (ws.erase c).get c' := by
          split
          · rename_i hlast
            exact (size_eq_zero.1 hlast c').symm
          · rfl
        rw [if_pos rfl, hleft, hws, Option.bind_some, Map.get_erase]
        simp only [eq_comm]
      · rw [if_neg hr]
        split
        · rename_i hc
          rw [hc]
          exact helse r (Ne.symm hr)
        · rfl
    · rw [byRoom_remove hroom hws] at hr
      split at hr
      · split at hr
        · cases hr
        · rename_i hlast
          obtain rfl := Option.some.inj hr
          by_contra hnone
          refine hlast (size_eq_zero.2 fun k => ?_)
          rcases hk : (ws.erase c).get k with _ | w'
          · rfl
          · exact absurd ⟨k, w', hk⟩ hnone
      · exact h.nonempty r ws' hr

theorem inverse_remove (h : Inverse inner) (c : ConnectionId) : Inverse (inner.remove c) := by
  obtain ⟨hgone, hrooms, hwatcher, hnonempty⟩ := remove_spec h c
  refine ⟨fun c' r => ?_, hnonempty⟩
  rw [hwatcher]
  by_cases hc : c' = c
  · subst hc
    simp [hgone]
  · rw [hrooms c' hc, if_neg hc]
    exact h.inverse c' r

/-- After a focus the connection is in its room only. -/
theorem watcher_focus (h : Inverse inner) :
    (inner.focus c u r now).watcher r' c' =
      if c' = c then (if r' = r then some { userId := u, since := now } else none) else inner.watcher r' c' := by
  obtain ⟨-, -, hwatcher, -⟩ := remove_spec h c
  show (((inner.remove c).byRoom.set r _).get r').bind _ = _
  by_cases hr : r = r'
  · subst hr
    rw [Map.get_set_self, Option.bind_some, Map.get_set]
    by_cases hc : c = c'
    · subst hc
      simp
    · rw [if_neg hc, if_neg (Ne.symm hc)]
      have hsame := hwatcher r c'
      rw [if_neg (Ne.symm hc)] at hsame
      rw [← hsame, watcher]
      rcases (inner.remove c).byRoom.get r with _ | ws <;> rfl
  · rw [Map.get_set_of_ne hr, if_neg (Ne.symm hr)]
    exact hwatcher r' c'

theorem inverse_focus (h : Inverse inner) : Inverse (inner.focus c u r now) := by
  obtain ⟨-, hrooms, -, hnonempty⟩ := remove_spec h c
  refine ⟨fun c' r' => ?_, fun r' ws hr => ?_⟩
  · rw [watcher_focus h]
    show ((inner.remove c).rooms.set c r).get c' = some r' ↔ _
    by_cases hc : c' = c
    · subst hc
      rw [Map.get_set_self, if_pos rfl, Option.some_inj]
      by_cases hr : r' = r
      · simp [hr]
      · simp [hr, Ne.symm hr]
    · rw [Map.get_set_of_ne (Ne.symm hc), hrooms c' hc, if_neg hc]
      exact h.inverse c' r'
  · have hr : ((inner.remove c).byRoom.set r _).get r' = some ws := hr
    rw [Map.get_set] at hr
    split at hr
    · obtain rfl := Option.some.inj hr
      exact ⟨c, _, Map.get_set_self⟩
    · exact hnonempty r' ws hr

/-- A touch renews what the connection is reading. -/
theorem watcher_touch (h : Inverse inner) :
    (inner.touch c now).watcher r' c' =
      if c' = c then (inner.watcher r' c').map fun w => { w with since := now } else inner.watcher r' c' := by
  unfold touch
  rcases hroom : inner.rooms.get c with _ | room
  · show inner.watcher r' c' = _
    split
    · rename_i hc
      subst hc
      rcases hw : inner.watcher r' c' with _ | w
      · rfl
      · rw [(h.inverse c' r').2 ⟨w, hw⟩] at hroom
        cases hroom
    · rfl
  · obtain ⟨w, hw⟩ := (h.inverse c room).1 hroom
    rcases hws : inner.byRoom.get room with _ | ws
    · rw [watcher, hws] at hw
      cases hw
    · rw [watcher_eq hws] at hw
      simp only [hws, hw]
      show ((inner.byRoom.set room _).get r').bind _ = _
      by_cases hr : room = r'
      · subst hr
        rw [Map.get_set_self, Option.bind_some, Map.get_set, watcher_eq hws]
        by_cases hc : c = c'
        · subst hc
          simp [hw]
        · rw [if_neg hc, if_neg (Ne.symm hc)]
      · rw [Map.get_set_of_ne hr]
        split
        · rename_i hc
          subst hc
          have hnone : inner.watcher r' c' = none := by
            rcases hw' : inner.watcher r' c' with _ | w'
            · rfl
            · exact absurd (h.one_room ((watcher_eq hws).trans hw) hw') hr
          rw [hnone, Option.map_none]
          exact hnone
        · rfl

theorem inverse_touch (h : Inverse inner) : Inverse (inner.touch c now) := by
  have hrooms : (inner.touch c now).rooms = inner.rooms := by
    unfold touch
    split
    · rfl
    · split
      · rfl
      · split <;> rfl
  have hsome : ∀ r' c', (∃ w, (inner.touch c now).watcher r' c' = some w) ↔ ∃ w, inner.watcher r' c' = some w := by
    intro r' c'
    rw [watcher_touch h]
    split
    · rcases inner.watcher r' c' with _ | w <;> simp
    · rfl
  refine ⟨fun c' r' => ?_, fun r' ws hr => ?_⟩
  · rw [hrooms, hsome]
    exact h.inverse c' r'
  · unfold touch at hr
    split at hr
    · exact h.nonempty r' ws hr
    · split at hr
      · exact h.nonempty r' ws hr
      · split at hr
        · exact h.nonempty r' ws hr
        · rw [Map.get_set] at hr
          split at hr
          · obtain rfl := Option.some.inj hr
            exact ⟨c, _, Map.get_set_self⟩
          · exact h.nonempty r' ws hr

theorem inverse_step (h : Inverse inner) (op : Op) : Inverse (step inner op) := by
  cases op with
  | focus c u r now => exact inverse_focus h
  | blur c now => exact inverse_remove h c
  | touch c now => exact inverse_touch h

/-- The indexes as they have to be: inverse to each other, without empty rooms, each connection in one room at most. -/
structure WellIndexed (inner : Attention) : Prop extends Inverse inner where
  one_room : ∀ c r r' w w', inner.watcher r c = some w → inner.watcher r' c = some w' → r = r'

theorem Inverse.wellIndexed (h : Inverse inner) : WellIndexed inner where
  toInverse := h
  one_room _ _ _ _ _ hw hw' := h.one_room hw hw'

/-! ## What a connection has said -/

/-- What an operation makes of what connection `c` is reading. -/
def attend (c : ConnectionId) (o : Option (RoomId × Watcher)) : Op → Option (RoomId × Watcher)
  | .focus c' u r now => if c' = c then some (r, { userId := u, since := now }) else o
  | .blur c' _ => if c' = c then none else o
  | .touch c' now => if c' = c then o.map fun (r, w) => (r, { w with since := now }) else o

/-- What the connection is reading after some operations. -/
def attended (c : ConnectionId) (ops : List Op) : Option (RoomId × Watcher) := ops.foldl (attend c) none

/-- Operation by operation, the index of a connection is what the connection has said. -/
theorem watcher_step (h : Inverse inner) {o : Option (RoomId × Watcher)}
    (htracks : ∀ r w, inner.watcher r c = some w ↔ o = some (r, w)) (op : Op) (r : RoomId) (w : Watcher) :
    (step inner op).watcher r c = some w ↔ attend c o op = some (r, w) := by
  cases op with
  | focus c' u' r' now =>
    show (inner.focus c' u' r' now).watcher r c = some w ↔ (if c' = c then some (r', { userId := u', since := now }) else o) = some (r, w)
    rw [watcher_focus h]
    by_cases hc : c = c'
    · subst hc
      rw [if_pos rfl, if_pos rfl]
      by_cases hr : r = r'
      · subst hr
        simp
      · simp [hr, Ne.symm hr]
    · rw [if_neg hc, if_neg (Ne.symm hc)]
      exact htracks r w
  | blur c' now =>
    show (inner.remove c').watcher r c = some w ↔ (if c' = c then none else o) = some (r, w)
    rw [(remove_spec h c').2.2.1]
    by_cases hc : c = c'
    · subst hc
      simp
    · rw [if_neg hc, if_neg (Ne.symm hc)]
      exact htracks r w
  | touch c' now =>
    show (inner.touch c' now).watcher r c = some w ↔
      (if c' = c then o.map fun (r, w) => (r, { w with since := now }) else o) = some (r, w)
    rw [watcher_touch h]
    by_cases hc : c = c'
    · subst hc
      rw [if_pos rfl, if_pos rfl, Option.map_eq_some_iff, Option.map_eq_some_iff]
      constructor
      · rintro ⟨w', hw', rfl⟩
        exact ⟨(r, w'), (htracks r w').1 hw', rfl⟩
      · rintro ⟨⟨r', w'⟩, ho, heq⟩
        obtain ⟨rfl, rfl⟩ := Prod.mk.inj heq
        exact ⟨w', (htracks r' w').2 ho, rfl⟩
    · rw [if_neg hc, if_neg (Ne.symm hc)]
      exact htracks r w

/-- What a connection is reading, and what the room has about it. -/
def entry (inner : Attention) (c : ConnectionId) : Option (RoomId × Watcher) :=
  (inner.rooms.get c).bind fun r => (inner.watcher r c).map fun w => (r, w)

theorem watcher_iff_entry (h : Inverse inner) {w : Watcher} : inner.watcher r c = some w ↔ inner.entry c = some (r, w) := by
  unfold entry
  constructor
  · intro hw
    rw [(h.inverse c r).2 ⟨w, hw⟩, Option.bind_some, hw, Option.map_some]
  · intro he
    obtain ⟨r', -, hw⟩ := Option.bind_eq_some_iff.1 he
    obtain ⟨w', hw', heq⟩ := Option.map_eq_some_iff.1 hw
    obtain ⟨rfl, rfl⟩ := Prod.mk.inj heq
    exact hw'

theorem rooms_eq_entry (h : Inverse inner) (c : ConnectionId) : inner.rooms.get c = (inner.entry c).map Prod.fst := by
  unfold entry
  rcases hroom : inner.rooms.get c with _ | r
  · rfl
  · obtain ⟨w, hw⟩ := (h.inverse c r).1 hroom
    simp [hw]

/-- An operation does to the entry of a connection what it says about that connection. -/
theorem entry_step (h : Inverse inner) (op : Op) (c : ConnectionId) : (step inner op).entry c = attend c (inner.entry c) op := by
  have htracks : ∀ r w, (step inner op).entry c = some (r, w) ↔ attend c (inner.entry c) op = some (r, w) := fun r w => by
    rw [← watcher_iff_entry (inverse_step h op)]
    exact watcher_step h (fun r w => watcher_iff_entry h) op r w
  exact Option.ext fun p => htracks p.1 p.2

theorem watcher_run {ops : List Op} {w : Watcher} : (run step empty ops).watcher r c = some w ↔ attended c ops = some (r, w) := by
  have hboth : Inverse (run step empty ops) ∧ ∀ r w, (run step empty ops).watcher r c = some w ↔ attended c ops = some (r, w) := by
    induction ops using List.reverseRecOn with
    | nil => exact ⟨inverse_empty, fun r w => by simp [empty, watcher, attended]⟩
    | append_singleton ops op ih =>
      rw [run_append, attended, List.foldl_append]
      exact ⟨inverse_step ih.1 op, fun r w => watcher_step ih.1 ih.2 op r w⟩
  exact hboth.2 r w

/-- The most recent focus of `c` is of `r`, by `u`; nothing was blurred since; and `c` was focused or touched less than
the limit before `now`. -/
def Reads (ops : List Op) (c : ConnectionId) (u : UserId) (r : RoomId) (now : Nat) : Prop :=
  ∃ before focused after, ops = before ++ .focus c u r focused :: after ∧ (∀ op ∈ after, op.settles c = false) ∧
    ∃ seen, (seen = focused ∨ .touch c seen ∈ after) ∧ now - seen < attentionTtl

/-- A connection that says nothing new is reading what it was, and was last seen when it last said so. -/
theorem attended_unsettled {after : List Op} {focused : Nat} (hsettled : ∀ op ∈ after, op.settles c = false)
    (hsorted : (focused :: after.map Op.now).Pairwise (· ≤ ·)) :
    ∃ seen, after.foldl (attend c) (some (r, { userId := u, since := focused })) = some (r, { userId := u, since := seen }) ∧
      focused ≤ seen ∧ ∀ t, .touch c t ∈ after → t ≤ seen := by
  induction after generalizing focused with
  | nil => exact ⟨focused, rfl, le_rfl, fun t h => by cases h⟩
  | cons op after ih =>
    rw [List.map_cons, List.pairwise_cons] at hsorted
    have hop := hsettled op List.mem_cons_self
    have hrest : ∀ op ∈ after, op.settles c = false := fun op hop => hsettled op (List.mem_cons_of_mem _ hop)
    have hle : focused ≤ op.now := hsorted.1 _ List.mem_cons_self
    have hlater := List.pairwise_cons.1 hsorted.2
    rw [List.foldl_cons]
    by_cases htouch : ∃ t, op = .touch c t
    · obtain ⟨t, rfl⟩ := htouch
      obtain ⟨seen, hseen, hge, htouches⟩ := @ih t hrest hsorted.2
      refine ⟨seen, ?_, hle.trans hge, fun t' ht' => ?_⟩
      · rw [← hseen]
        simp [attend]
      · rcases List.mem_cons.1 ht' with heq | ht'
        · cases heq
          exact hge
        · exact htouches t' ht'
    · have hsame : attend c (some (r, { userId := u, since := focused })) op = some (r, { userId := u, since := focused }) := by
        cases op with
        | focus c' u' r' now => exact if_neg (by simpa [Op.settles] using hop)
        | blur c' now => exact if_neg (by simpa [Op.settles] using hop)
        | touch c' now =>
          refine if_neg fun hc => htouch ⟨now, ?_⟩
          rw [hc]
      obtain ⟨seen, hseen, hge, htouches⟩ := ih hrest (List.pairwise_cons.2 ⟨fun t ht => hle.trans (hlater.1 t ht), hlater.2⟩)
      refine ⟨seen, by rw [hsame, hseen], hge, fun t' ht' => ?_⟩
      rcases List.mem_cons.1 ht' with heq | ht'
      · exact absurd ⟨t', heq.symm⟩ htouch
      · exact htouches t' ht'

/-- What a connection is reading was focused, and was not settled anew. -/
theorem focused_of_attended {ops : List Op} {w : Watcher} (h : attended c ops = some (r, w)) :
    ∃ before focused after, ops = before ++ .focus c w.userId r focused :: after ∧ (∀ op ∈ after, op.settles c = false) ∧
      (w.since = focused ∨ .touch c w.since ∈ after) := by
  induction ops using List.reverseRecOn generalizing w with
  | nil => cases h
  | append_singleton ops op ih =>
    rw [attended, List.foldl_append] at h
    change attend c (attended c ops) op = some (r, w) at h
    -- an operation that is not of this connection, or does not settle it, leaves an earlier focus in force
    have hearlier : op.settles c = false → ∀ w', attended c ops = some (r, w') → w'.userId = w.userId →
        (w.since = w'.since ∨ op = .touch c w.since) →
        ∃ before focused after, ops ++ [op] = before ++ .focus c w.userId r focused :: after ∧
          (∀ op ∈ after, op.settles c = false) ∧ (w.since = focused ∨ .touch c w.since ∈ after) := by
      intro hop w' hw' huser hsince
      obtain ⟨before, focused, after, hops, hsettled, hseen⟩ := ih hw'
      refine ⟨before, focused, after ++ [op], by rw [hops, huser, List.append_assoc]; rfl, ?_, ?_⟩
      · intro op' hop'
        rcases List.mem_append.1 hop' with hop' | hop'
        · exact hsettled op' hop'
        · rw [List.mem_singleton.1 hop']
          exact hop
      · rcases hsince with hsince | hsince
        · rw [hsince]
          exact hseen.imp id fun h => List.mem_append_left _ h
        · right
          rw [← hsince]
          exact List.mem_append_right _ (List.mem_singleton_self _)
    cases op with
    | focus c' u' r' now =>
      simp only [attend] at h
      split at h
      · rename_i hc
        subst hc
        cases h
        exact ⟨ops, now, [], rfl, by simp, .inl rfl⟩
      · rename_i hc
        exact hearlier (by simpa [Op.settles] using hc) w h rfl (.inl rfl)
    | blur c' now =>
      simp only [attend] at h
      split at h
      · cases h
      · rename_i hc
        exact hearlier (by simpa [Op.settles] using hc) w h rfl (.inl rfl)
    | touch c' now =>
      simp only [attend] at h
      split at h
      · rename_i hc
        subst hc
        obtain ⟨⟨r', w'⟩, hw', heq⟩ := Option.map_eq_some_iff.1 h
        obtain ⟨rfl, rfl⟩ := Prod.mk.inj heq
        exact hearlier rfl w' hw' rfl (.inr rfl)
      · exact hearlier rfl w h rfl (.inl rfl)

theorem reads_iff {ops : List Op} (hsorted : (ops.map Op.now).Pairwise (· ≤ ·)) :
    Reads ops c u r now ↔ ∃ seen, attended c ops = some (r, { userId := u, since := seen }) ∧ now - seen < attentionTtl := by
  constructor
  · rintro ⟨before, focused, after, rfl, hsettled, seen, hseen, hrecent⟩
    rw [List.map_append, List.pairwise_append, List.map_cons] at hsorted
    obtain ⟨last, hlast, hfocused, htouches⟩ := attended_unsettled (u := u) (r := r) hsettled hsorted.2.1
    refine ⟨last, ?_, ?_⟩
    · rw [attended, List.foldl_append, List.foldl_cons, show attend c _ (.focus c u r focused) = some (r, ⟨u, focused⟩) from if_pos rfl]
      exact hlast
    · have hle : seen ≤ last := by
        rcases hseen with rfl | hseen
        · exact hfocused
        · exact htouches seen hseen
      omega
  · rintro ⟨seen, h, hrecent⟩
    obtain ⟨before, focused, after, hops, hsettled, hseen⟩ := focused_of_attended h
    exact ⟨before, focused, after, hops, hsettled, seen, hseen, hrecent⟩

/-- Over every run: the indexes stay as they have to be, and who is watching a room, at any instant, is whoever has a
connection that reads it. -/
theorem attention_right (ops : List Op) (hsorted : (ops.map Op.now).Pairwise (· ≤ ·)) :
    Always step WellIndexed empty ops ∧
      ∀ r now, ∃ p : UserId → Bool, (∀ u, p u = true ↔ ∃ c, Reads ops c u r now) ∧
        ∀ ids, (run step empty ops).watching r ids now = ids.filter p := by
  have hindexed : Always step Inverse empty ops := always_of_step (fun _ op h => inverse_step h op) inverse_empty
  refine ⟨hindexed.mono fun _ h => h.wellIndexed, fun r now => ?_⟩
  refine ⟨fun u => ((run step empty ops).byRoom.get r).any fun ws =>
    ws.values.any fun w => w.userId = u && decide (now - w.since < attentionTtl), fun u => ?_, fun ids => ?_⟩
  · rw [Option.any_eq_true]
    simp only [List.any_eq_true, Bool.and_eq_true, decide_eq_true_eq]
    constructor
    · rintro ⟨ws, hws, w, hw, rfl, hrecent⟩
      obtain ⟨c, hc⟩ := Map.mem_values.1 hw
      exact ⟨c, (reads_iff hsorted).2 ⟨w.since, watcher_run.1 ((watcher_eq hws).trans hc), hrecent⟩⟩
    · rintro ⟨c, hreads⟩
      obtain ⟨seen, hattended, hrecent⟩ := (reads_iff hsorted).1 hreads
      have hwatcher := watcher_run.2 hattended
      obtain ⟨ws, hws, hc⟩ := Option.bind_eq_some_iff.1 hwatcher
      exact ⟨ws, hws, _, Map.mem_values.2 ⟨c, hc⟩, rfl, hrecent⟩
  · unfold watching
    rcases (run step empty ops).byRoom.get r with _ | ws
    · simp
    · rfl

/-- Somebody reads one room on a phone, and another on a laptop that moves on. -/
theorem attention_right_for_two :
    Always step WellIndexed empty [.focus ⟨1⟩ ⟨7⟩ ⟨1⟩ 0, .focus ⟨2⟩ ⟨7⟩ ⟨1⟩ 5, .focus ⟨2⟩ ⟨7⟩ ⟨2⟩ 8, .touch ⟨1⟩ 9, .blur ⟨2⟩ 12] ∧
      ∀ r now, ∃ p : UserId → Bool,
        (∀ u, p u = true ↔
          ∃ c, Reads [.focus ⟨1⟩ ⟨7⟩ ⟨1⟩ 0, .focus ⟨2⟩ ⟨7⟩ ⟨1⟩ 5, .focus ⟨2⟩ ⟨7⟩ ⟨2⟩ 8, .touch ⟨1⟩ 9, .blur ⟨2⟩ 12] c u r now) ∧
        ∀ ids, (run step empty [.focus ⟨1⟩ ⟨7⟩ ⟨1⟩ 0, .focus ⟨2⟩ ⟨7⟩ ⟨1⟩ 5, .focus ⟨2⟩ ⟨7⟩ ⟨2⟩ 8, .touch ⟨1⟩ 9,
          .blur ⟨2⟩ 12]).watching r ids now = ids.filter p :=
  attention_right _ (by decide)

end Attention

end Genzh.Infrastructure
