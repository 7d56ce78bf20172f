/-
Who is online. Presence is derived from live connections: the store keeps a count for each user who has one, and
says what a connection that opens or closes did to the user's visible state. A count is never left at zero, so the
users of the map are the users online.
-/
import Genzh.Lib.Map
import Genzh.Domain.Basic

namespace Genzh.Infrastructure

open Genzh.Lib Genzh.Domain

/-- What a connect or disconnect did to a user's visible state. -/
inductive PresenceChange where
  | cameOnline
  | wentOffline
  | unchanged
  deriving DecidableEq, Repr

/-- The online state to announce, or `none` when there is nothing to say. -/
def PresenceChange.announcedState : PresenceChange → Option Bool
  | cameOnline => some true
  | wentOffline => some false
  | unchanged => none

/-- Connection counts, keyed by user. -/
structure InMemoryPresenceStore where
  inner : Map UserId Nat
  positive : ∀ u n, inner.get u = some n → 0 < n

namespace InMemoryPresenceStore

/-- An empty registry. -/
def new : InMemoryPresenceStore := ⟨.empty, fun u n h => by cases h⟩

/-- Register a live connection for `u`. -/
def connect (u : UserId) (s : InMemoryPresenceStore) : PresenceChange × InMemoryPresenceStore :=
  let count := (s.inner.get u).getD 0 + 1
  (if count = 1 then .cameOnline else .unchanged,
   { inner := s.inner.set u count
     positive := fun v n h => by
      rw [Map.get_set] at h
      split at h
      · cases h
        omega
      · exact s.positive v n h })

/-- Drop a connection for `u`. A user with no recorded connections is not an error. -/
def disconnect (u : UserId) (s : InMemoryPresenceStore) : PresenceChange × InMemoryPresenceStore :=
  match s.inner.get u with
  | none => (.unchanged, s)
  | some count =>
    if h : count - 1 = 0 then
      (.wentOffline,
       { inner := s.inner.erase u
         positive := fun v n hv => by
          rw [Map.get_erase] at hv
          split at hv
          · cases hv
          · exact s.positive v n hv })
    else
      (.unchanged,
       { inner := s.inner.set u (count - 1)
         positive := fun v n hv => by
          rw [Map.get_set] at hv
          split at hv
          · cases hv
            omega
          · exact s.positive v n hv })

/-- Is this user online right now? -/
def isOnline (s : InMemoryPresenceStore) (u : UserId) : Bool := (s.inner.get u).isSome

/-- Which of `ids` are online. -/
def onlineAmong (s : InMemoryPresenceStore) (ids : List UserId) : List UserId := ids.filter s.isOnline

/-- How many connections the store counts for a user. -/
def count (s : InMemoryPresenceStore) (u : UserId) : Nat := (s.inner.get u).getD 0

/-! ## What a connection moves -/

variable {s : InMemoryPresenceStore} {u v : UserId}

@[simp] theorem count_new : new.count u = 0 := rfl

theorem count_connect : (s.connect u).2.count v = s.count v + if u = v then 1 else 0 := by
  unfold count connect
  simp only [Map.get_set]
  split
  · rename_i h
    subst h
    rfl
  · rfl

theorem count_disconnect : (s.disconnect u).2.count v = s.count v - if u = v then 1 else 0 := by
  unfold count disconnect
  rcases hu : s.inner.get u with _ | n
  · by_cases h : u = v
    · subst h
      simp [hu]
    · simp [h]
  · simp only
    split
    · rw [Map.get_erase]
      by_cases h : u = v
      · subst h
        simp only [if_true, hu, Option.getD_none, Option.getD_some]
        omega
      · simp [h]
    · rw [Map.get_set]
      by_cases h : u = v
      · subst h
        simp [hu]
      · simp [h]

theorem change_connect : (s.connect u).1 = if s.count u = 0 then .cameOnline else .unchanged := by
  unfold count connect
  simp

theorem change_disconnect : (s.disconnect u).1 = if s.count u = 1 then .wentOffline else .unchanged := by
  unfold count disconnect
  rcases hu : s.inner.get u with _ | n
  · rfl
  · have hpos := s.positive u n hu
    simp only [Option.getD_some]
    by_cases hn : n = 1
    · subst hn
      rfl
    · have hne : n - 1 ≠ 0 := by omega
      rw [dif_neg hne, if_neg hn]

/-- A user is online exactly while a connection of theirs is counted. -/
theorem isOnline_iff : s.isOnline u = true ↔ 0 < s.count u := by
  unfold isOnline count
  rcases hu : s.inner.get u with _ | n
  · simp
  · simpa using s.positive u n hu

theorem mem_onlineAmong {ids : List UserId} : u ∈ s.onlineAmong ids ↔ u ∈ ids ∧ 0 < s.count u := by
  unfold onlineAmong
  rw [List.mem_filter, isOnline_iff]

end InMemoryPresenceStore

end Genzh.Infrastructure
