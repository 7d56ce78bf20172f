/-
Community and room permissions, and the mask they fold into. A `PermissionSet` is the `BIGINT` of an
override row; `allows` is the one question every service asks of it.
-/
import Genzh.Domain.Basic

namespace Genzh.Domain

/-- A single capability a role can grant inside a community or room. -/
inductive Permission where
  | viewRoom
  | sendMessage
  | addReaction
  | speak
  | useVideo
  | screenShare
  | stream
  | muteMembers
  | moveMembers
  | manageRoom
  | manageCommunity
  | manageRoles
  | manageMembers
  | administrator
  deriving DecidableEq, Repr

namespace Permission

/-- Every permission, in catalogue order. -/
def all : List Permission :=
  [viewRoom, sendMessage, addReaction, speak, useVideo, screenShare, stream, muteMembers, moveMembers,
    manageRoom, manageCommunity, manageRoles, manageMembers, administrator]

def toKey : Permission → String
  | viewRoom => "view_room"
  | sendMessage => "send_message"
  | addReaction => "add_reaction"
  | speak => "speak"
  | useVideo => "use_video"
  | screenShare => "screen_share"
  | stream => "stream"
  | muteMembers => "mute_members"
  | moveMembers => "move_members"
  | manageRoom => "manage_room"
  | manageCommunity => "manage_community"
  | manageRoles => "manage_roles"
  | manageMembers => "manage_members"
  | administrator => "administrator"

/-- `FromStr`: the permission of a key of the catalogue. -/
def fromStr (s : String) : Except DomainError Permission :=
  match all.find? fun p => p.toKey = s with
  | some p => .ok p
  | none => .error (.unknownPermission s)

theorem mem_all (p : Permission) : p ∈ all := by cases p <;> decide

end Permission

/-- A folded set of permissions. -/
abbrev PermissionSet := BitVec 64

namespace PermissionSet

def ofPermission : Permission → PermissionSet
  | .viewRoom => 1#64 <<< 0
  | .sendMessage => 1#64 <<< 1
  | .addReaction => 1#64 <<< 2
  | .speak => 1#64 <<< 3
  | .useVideo => 1#64 <<< 4
  | .screenShare => 1#64 <<< 5
  | .stream => 1#64 <<< 6
  | .muteMembers => 1#64 <<< 7
  | .moveMembers => 1#64 <<< 8
  | .manageRoom => 1#64 <<< 9
  | .manageCommunity => 1#64 <<< 10
  | .manageRoles => 1#64 <<< 11
  | .manageMembers => 1#64 <<< 12
  | .administrator => 1#64 <<< 13

end PermissionSet

/-- The single-bit mask for this permission. -/
def Permission.bit (p : Permission) : PermissionSet := PermissionSet.ofPermission p

namespace PermissionSet

def empty : PermissionSet := 0#64

def administrator : PermissionSet := Permission.administrator.bit

def contains (s t : PermissionSet) : Bool := s &&& t = t

/-- The default grant for a freshly created community's `@everyone` role. -/
def defaultMember : PermissionSet :=
  Permission.viewRoom.bit ||| Permission.sendMessage.bit ||| Permission.addReaction.bit |||
    Permission.speak.bit ||| Permission.useVideo.bit

/-- Does this set grant the permission? Administrators are granted every one. -/
def allows (s : PermissionSet) (p : Permission) : Bool := s.contains administrator || s.contains p.bit

/-- Fold permissions into a mask. -/
def fromPermissions (ps : List Permission) : PermissionSet := ps.foldl (fun acc p => acc ||| p.bit) empty

/-- A room-level override: denials are subtracted first, then grants are added. -/
def withOverrides (s allow deny : PermissionSet) : PermissionSet := (s &&& ~~~deny) ||| allow

theorem administrator_allows (p : Permission) : administrator.allows p = true := by
  cases p <;> decide

/-- What an open standalone room grants to whoever comes. -/
theorem open_room_allows (p : Permission) :
    (defaultMember ||| Permission.screenShare.bit).allows p ↔
      p = .viewRoom ∨ p = .sendMessage ∨ p = .addReaction ∨ p = .speak ∨ p = .useVideo ∨ p = .screenShare := by
  cases p <;> decide

/-! ### Folding -/

/-- The position of a permission's bit. -/
def position : Permission → Nat
  | .viewRoom => 0
  | .sendMessage => 1
  | .addReaction => 2
  | .speak => 3
  | .useVideo => 4
  | .screenShare => 5
  | .stream => 6
  | .muteMembers => 7
  | .moveMembers => 8
  | .manageRoom => 9
  | .manageCommunity => 10
  | .manageRoles => 11
  | .manageMembers => 12
  | .administrator => 13

theorem bit_eq_twoPow (p : Permission) : p.bit = BitVec.twoPow 64 (position p) := by
  cases p <;> rfl

theorem position_injective {p q : Permission} (h : position p = position q) : p = q := by
  cases p <;> cases q <;> first | rfl | cases h

/-- A set contains a permission's mask exactly if the bit is set. -/
theorem contains_bit (s : PermissionSet) (p : Permission) : s.contains p.bit = s.getLsbD (position p) := by
  have hlt : position p < 64 := by cases p <;> decide
  unfold contains
  rw [bit_eq_twoPow, BitVec.and_twoPow]
  rcases h : s.getLsbD (position p)
  · have hne : (0#64 : BitVec 64) ≠ BitVec.twoPow 64 (position p) := by cases p <;> decide
    simpa using hne
  · simp

theorem getLsbD_bit (p : Permission) (i : Nat) : p.bit.getLsbD i = decide (position p = i) := by
  have hlt : position p < 64 := by cases p <;> decide
  rw [bit_eq_twoPow, BitVec.getLsbD_twoPow]
  simp [hlt]

theorem getLsbD_fromPermissions (ps : List Permission) (i : Nat) :
    (fromPermissions ps).getLsbD i = ps.any fun p => decide (position p = i) := by
  have hfold : ∀ s : PermissionSet, (ps.foldl (fun acc p => acc ||| p.bit) s).getLsbD i =
      (s.getLsbD i || ps.any fun p => decide (position p = i)) := by
    induction ps with
    | nil => simp
    | cons p ps ih =>
      intro s
      rw [List.foldl_cons, ih, BitVec.getLsbD_or, getLsbD_bit, List.any_cons, Bool.or_assoc]
  unfold fromPermissions
  rw [hfold, empty, BitVec.getLsbD_zero, Bool.false_or]

/-- What a folded set contains. -/
theorem contains_fromPermissions (ps : List Permission) (q : Permission) :
    (fromPermissions ps).contains q.bit = true ↔ q ∈ ps := by
  rw [contains_bit, getLsbD_fromPermissions, List.any_eq_true]
  constructor
  · rintro ⟨p, hp, hposition⟩
    exact position_injective (of_decide_eq_true hposition) ▸ hp
  · intro hq
    exact ⟨q, hq, decide_eq_true rfl⟩

/-- Neither the order of the permissions nor how often one is given matters. -/
theorem fromPermissions_congr {ps qs : List Permission} (h : ∀ p, p ∈ ps ↔ p ∈ qs) :
    fromPermissions ps = fromPermissions qs := by
  apply BitVec.eq_of_getLsbD_eq
  intro i _
  rw [getLsbD_fromPermissions, getLsbD_fromPermissions, Bool.eq_iff_iff, List.any_eq_true, List.any_eq_true]
  exact exists_congr fun p => and_congr_left' (h p)

/-- What is left of a set after an override. -/
theorem contains_withOverrides (s allow deny : PermissionSet) (p : Permission) :
    (s.withOverrides allow deny).contains p.bit = true ↔
      allow.contains p.bit = true ∨ (s.contains p.bit = true ∧ ¬deny.contains p.bit = true) := by
  have hlt : position p < 64 := by cases p <;> decide
  simp only [contains_bit, withOverrides, BitVec.getLsbD_or, BitVec.getLsbD_and, BitVec.getLsbD_not, hlt, decide_true,
    Bool.true_and, Bool.or_eq_true, Bool.and_eq_true, Bool.not_eq_true', Bool.not_eq_true]
  exact or_comm

/-- What a folded set allows: what is in it, and everything where the administrator's permission is. -/
theorem allows_fromPermissions (ps : List Permission) (q : Permission) :
    (fromPermissions ps).allows q = true ↔ q ∈ ps ∨ Permission.administrator ∈ ps := by
  unfold allows
  rw [Bool.or_eq_true, or_comm, contains_fromPermissions]
  exact or_congr_right (contains_fromPermissions ps .administrator)

end PermissionSet

end Genzh.Domain
