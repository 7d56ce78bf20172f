/-
What staff leave of an account's profile. The handle and the display name are written by statements of their own, and
there is no column that the second could write: it fails after the first is done. And the handle is only trimmed and
lowered, so an account can get one that no other path to the table would let through.
-/
import Genzh.Admin.Staff
import Genzh.Domain.Mentions

namespace Genzh.Admin

open Genzh.Lib Genzh.Domain Genzh.Infrastructure

variable {toLowercase : String → String} {db : Db} {target : UserId} {newHandle newDisplayName : Option String}

/-! ## What an update should come to -/

/-- What a request to update a profile leaves. -/
def profileUpdated (toLowercase : String → String) (target : UserId) (newHandle newDisplayName : Option String) (db : Db) :
    Db :=
  ((updateUserProfile toLowercase target newHandle newDisplayName).exec db).2

/-- The account has the display name. -/
def Displays (target : UserId) (name : String) (db : Db) : Prop :=
  ∃ profile, db.profiles.find target = some profile ∧ profile.displayName = trim name

/-- Every field of the patch stands. -/
structure Applied (toLowercase : String → String) (target : UserId) (newHandle newDisplayName : Option String) (db : Db) :
    Prop where
  handle : ∀ raw, newHandle = some raw → ∃ user, db.users.find target = some user ∧ user.handle = toLowercase (trim raw)
  displayName : ∀ name, newDisplayName = some name → Displays target name db

/-- The account is as it was. -/
structure Untouched (target : UserId) (db db' : Db) : Prop where
  user : db'.users.find target = db.users.find target
  profile : db'.profiles.find target = db.profiles.find target

/-- Every stored handle is a fixed point of `normalizeHandle`. -/
def HandlesFixed (toLowercase : String → String) (db : Db) : Prop :=
  ∀ user ∈ db.users.rows, normalizeHandle toLowercase user.handle = .ok user.handle

/-- `users_handle_key`. -/
def UniqueHandles (db : Db) : Prop := ∀ user ∈ db.users.rows, ∀ other ∈ db.users.rows, user.handle = other.handle → user = other

/-- `SELECT .. FROM users WHERE handle = $1`. -/
def byHandle (handle : String) (db : Db) : List User := db.users.select fun user => user.handle = handle

/-- What an update of a profile should come to: all of the patch or nothing, and handles by which the accounts are
found. -/
structure UpdatesProfile (toLowercase : String → String) (target : UserId) (newHandle newDisplayName : Option String)
    (db db' : Db) : Prop where
  whole : Applied toLowercase target newHandle newDisplayName db' ∨ Untouched target db db'
  fixed : HandlesFixed toLowercase db → HandlesFixed toLowercase db'
  found : HandlesFixed toLowercase db → UniqueHandles db → ∀ user ∈ db'.users.rows,
    ∃ handle, normalizeHandle toLowercase user.handle = .ok handle ∧ byHandle handle db' = [user]

/-- Where it does: a handle that is written comes with no display name other than the account's, unless it is the
account's own handle; and it is a handle. -/
structure Orderly (toLowercase : String → String) (target : UserId) (newHandle newDisplayName : Option String) (db : Db) :
    Prop where
  alone : ∀ handle, writtenHandle toLowercase target newHandle db = some handle →
    (∀ name, newDisplayName = some name → Displays target name db) ∨
      ∀ user, db.users.find target = some user → user.handle = handle
  isHandle : ∀ handle, writtenHandle toLowercase target newHandle db = some handle → HandlesFixed toLowercase db →
    IsHandle handle.toList

/-! ## A renamed account -/

theorem handlesFixed_renamed_iff (hlower : LowersAscii toLowercase) (hfixed : HandlesFixed toLowercase db)
    (ht : db.users.contains target = true) (handle : String) :
    HandlesFixed toLowercase (renamed target handle db) ↔ IsHandle handle.toList := by
  rw [← normalizeHandle_fixed_iff hlower]
  constructor
  · intro h
    obtain ⟨user, hf⟩ := Table.contains_iff.1 ht
    obtain ⟨hmem, hid⟩ := Table.find_eq_some.1 hf
    exact h { user with handle } (mem_renamed.2 (.inl ⟨user, hmem, hid, rfl⟩))
  · intro h user hmem
    rcases mem_renamed.1 hmem with ⟨old, -, -, rfl⟩ | ⟨hmem, -⟩
    · exact h
    · exact hfixed user hmem

theorem uniqueHandles_renamed (hunique : UniqueHandles db) {handle : String} (hfree : handleElsewhere target handle db = false) :
    UniqueHandles (renamed target handle db) := by
  have hother : ∀ other ∈ db.users.rows, other.id ≠ target → other.handle ≠ handle := by
    intro other hmem hid hsame
    have hnone := List.any_eq_false.1 hfree other hmem
    exact hnone (by simp [hid, hsame])
  intro user huser other hmem hsame
  rcases mem_renamed.1 huser with ⟨old, hold, hid, rfl⟩ | ⟨huser, hid⟩
  · rcases mem_renamed.1 hmem with ⟨old', hold', hid', rfl⟩ | ⟨hmem, hid'⟩
    · -- both are the account that was renamed
      rw [List.inj_on_of_nodup_map db.users.nodup hold hold' (hid.trans hid'.symm)]
    · exact absurd hsame.symm (hother other hmem hid')
  · rcases mem_renamed.1 hmem with ⟨old', -, -, rfl⟩ | ⟨hmem, -⟩
    · exact absurd hsame (hother user huser hid)
    · exact hunique user huser other hmem hsame

/-- Where the stored handles are fixed and no two are the same, each account is found by its own. -/
theorem byHandle_of_fixed (hfixed : HandlesFixed toLowercase db) (hunique : UniqueHandles db) {user : User}
    (hmem : user ∈ db.users.rows) :
    ∃ handle, normalizeHandle toLowercase user.handle = .ok handle ∧ byHandle handle db = [user] := by
  refine ⟨user.handle, hfixed user hmem, Table.select_eq_singleton hmem fun other hother => ?_⟩
  rw [decide_eq_true_eq]
  exact ⟨fun hsame => hunique other hother user hmem hsame, fun hsame => congrArg User.handle hsame⟩

/-! ## Atomicity -/

theorem profileUpdated_none (h : writtenHandle toLowercase target newHandle db = none) :
    profileUpdated toLowercase target newHandle newDisplayName db = db := by
  rw [profileUpdated, exec_updateUserProfile, h]
  rfl

theorem profileUpdated_some {handle : String} (h : writtenHandle toLowercase target newHandle db = some handle) :
    profileUpdated toLowercase target newHandle newDisplayName db = renamed target handle db := by
  rw [profileUpdated, exec_updateUserProfile, h]
  rfl

/-- A rename is the whole patch or none of it exactly if nothing else was asked for that does not stand, or the handle was
the account's own. -/
theorem whole_renamed_iff {handle : String} (h : writtenHandle toLowercase target newHandle db = some handle) :
    Applied toLowercase target newHandle newDisplayName (renamed target handle db) ∨
        Untouched target db (renamed target handle db) ↔
      (∀ name, newDisplayName = some name → Displays target name db) ∨
        ∀ user, db.users.find target = some user → user.handle = handle := by
  obtain ⟨raw, hraw, hhandle, ht, -⟩ := writtenHandle_some h
  obtain ⟨user, hf⟩ := Table.contains_iff.1 ht
  have hrow : (renamed target handle db).users.find target = some { user with handle } := by
    rw [find_renamed, hf]
    rfl
  refine or_congr ?_ ?_
  · constructor
    · exact fun happlied => happlied.displayName
    · -- a rename writes nothing a display name is read from
      refine fun hname => ⟨fun raw' hraw' => ⟨_, hrow, ?_⟩, hname⟩
      rw [hraw] at hraw'
      cases hraw'
      exact hhandle.symm
  · constructor
    · intro huntouched user' hf'
      have hsame := huntouched.user
      rw [hrow, hf'] at hsame
      exact (congrArg User.handle (Option.some.inj hsame)).symm
    · intro hown
      refine ⟨?_, rfl⟩
      rw [hrow, hf, ← hown user hf]

/-- An update of a profile is all of the patch or nothing, and keeps the handles by which the accounts are found, exactly
where it is orderly. -/
theorem updatesProfile_iff (hlower : LowersAscii toLowercase) (target : UserId) (newHandle newDisplayName : Option String)
    (db : Db) :
    UpdatesProfile toLowercase target newHandle newDisplayName db
        (profileUpdated toLowercase target newHandle newDisplayName db) ↔
      Orderly toLowercase target newHandle newDisplayName db := by
  rcases hw : writtenHandle toLowercase target newHandle db with _ | written
  · rw [profileUpdated_none hw]
    have hnone : ∀ handle, writtenHandle toLowercase target newHandle db ≠ some handle := by
      intro handle hsome
      rw [hw] at hsome
      cases hsome
    constructor
    · exact fun _ => ⟨fun handle hsome => absurd hsome (hnone handle), fun handle hsome => absurd hsome (hnone handle)⟩
    · exact fun _ => ⟨.inr ⟨rfl, rfl⟩, id, fun hfixed hunique user hmem => byHandle_of_fixed hfixed hunique hmem⟩
  · rw [profileUpdated_some hw]
    obtain ⟨-, -, -, ht, hfree⟩ := writtenHandle_some hw
    constructor
    · intro h
      refine ⟨fun handle hsome => ?_, fun handle hsome hfixed => ?_⟩
      · cases hw.symm.trans hsome
        exact (whole_renamed_iff hw).1 h.whole
      · cases hw.symm.trans hsome
        exact (handlesFixed_renamed_iff hlower hfixed ht _).1 (h.fixed hfixed)
    · intro h
      have hkept : HandlesFixed toLowercase db → HandlesFixed toLowercase (renamed target written db) :=
        fun hfixed => (handlesFixed_renamed_iff hlower hfixed ht _).2 (h.isHandle written hw hfixed)
      exact ⟨(whole_renamed_iff hw).2 (h.alone written hw), hkept, fun hfixed hunique user hmem =>
        byHandle_of_fixed (hkept hfixed) (uniqueHandles_renamed hunique hfree) hmem⟩

/-- An account, and its profile. -/
def anaOnly : Db :=
  { Db.empty 0 with
    users := Table.empty.insert { id := ⟨2⟩, handle := "ana", email := "ana@genzh.test", isActive := true }
    profiles := Table.empty.insert { userId := ⟨2⟩, displayName := "Ana", avatarUrl := none } }

/-- A handle that is one, and no display name. -/
theorem updatesProfile_renamed :
    UpdatesProfile lowerAscii ⟨2⟩ (some " Ana.B ") none anaOnly (profileUpdated lowerAscii ⟨2⟩ (some " Ana.B ") none anaOnly) := by
  refine (updatesProfile_iff lowersAscii_lowerAscii ⟨2⟩ (some " Ana.B ") none anaOnly).2 ⟨?_, ?_⟩
  · exact fun handle _ => .inl fun name hname => absurd hname (Option.some_ne_none name).symm
  · intro handle hwritten _
    have hb : handle = "ana.b" := Option.some.inj (hwritten.symm.trans (by decide +kernel))
    subst hb
    exact ⟨by decide, by decide, List.all_eq_true.1 (by decide), by decide, by decide, by decide⟩

/-- The handle is written and the display name is not; and an account gets a handle of two letters. -/
theorem not_updatesProfile :
    ¬UpdatesProfile lowerAscii ⟨2⟩ (some "anna") (some "Anna") anaOnly
        (profileUpdated lowerAscii ⟨2⟩ (some "anna") (some "Anna") anaOnly) ∧
      ¬UpdatesProfile lowerAscii ⟨2⟩ (some "an") none anaOnly (profileUpdated lowerAscii ⟨2⟩ (some "an") none anaOnly) := by
  constructor
  · intro h
    have hfind : (profileUpdated lowerAscii ⟨2⟩ (some "anna") (some "Anna") anaOnly).users.find ⟨2⟩ ≠
        anaOnly.users.find ⟨2⟩ := by decide +kernel
    rcases h.whole with happlied | huntouched
    · obtain ⟨profile, hprofile, hname⟩ := happlied.displayName "Anna" rfl
      have hana : some profile = some { userId := ⟨2⟩, displayName := "Ana", avatarUrl := none } :=
        hprofile.symm.trans (by decide +kernel)
      rw [Option.some.inj hana] at hname
      exact absurd hname (by decide +kernel)
    · exact hfind huntouched.user
  · intro h
    have hbefore : HandlesFixed lowerAscii anaOnly := by
      unfold HandlesFixed
      decide +kernel
    have hafter := h.fixed hbefore { id := ⟨2⟩, handle := "an", email := "ana@genzh.test", isActive := true }
      (by decide +kernel)
    exact absurd hafter (by decide +kernel)

end Genzh.Admin
