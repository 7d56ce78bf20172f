/-
Refreshes that a logout or a login overtakes. They end as if nothing had happened since they began, so the session they end
over is restored, replaced or cleared; and a logout meanwhile shows the server the token that is being renewed once more.
-/
import Genzh.Client.Tokens
import Genzh.Lib.Run

namespace Genzh.Client.Tokens

open Genzh.Lib Genzh.Domain

namespace AuthProvider

/-- Nobody is signed in. -/
def SignedOut (s : AuthProvider) : Prop := s.session = none ∧ s.stored = none ∧ s.user = none

/-- The refresh that is under way was overtaken by a logout or a login. -/
def Overtaken (s : AuthProvider) : Prop := ∃ r, s.refreshing = some r ∧ r.overtaken = true

/-- Who is signed in, and with which tokens, is as it was. -/
structure Leaves (s s' : AuthProvider) : Prop where
  session : s'.session = s.session
  stored : s'.stored = s.stored
  user : s'.user = s.user

/-- A refresh that was overtaken ends without a trace. -/
def Lapses (p : Platform) (s : AuthProvider) (e : Event) : Prop :=
  e.completes = true → s.Overtaken → s.Leaves (s.step p e)

/-- Nobody logs out while the session's own token is being renewed. A refresh that was overtaken does not go through, and
where it fails nobody is signed in. -/
def Spares (p : Platform) (s : AuthProvider) : Event → Prop
  | .logout => ∀ t, s.current = some t → s.renewing ≠ some t
  | .refreshed _ _ writes => ∀ t, s.refreshing = some ⟨t, .asked, true⟩ → p = .mobile ∧ writes = false
  | .refused => ∀ t, s.refreshing = some ⟨t, .asked, true⟩ → s.SignedOut
  | .kept => ∀ t next written, s.refreshing = some ⟨t, .keeping next written, true⟩ → written = false ∧ s.SignedOut
  | _ => True

variable {p : Platform} {s : AuthProvider}

/-! ## When a refresh ends without a trace -/

/-- A sign-out shows unless nobody is signed in. -/
theorem leaves_signOut_iff : s.Leaves { s.signOutLocally with refreshing := none } ↔ s.SignedOut :=
  ⟨fun h => ⟨h.session.symm, h.stored.symm, h.user.symm⟩, fun ⟨h, h', h''⟩ => ⟨h.symm, h'.symm, h''.symm⟩⟩

theorem lapses_iff {e : Event} (h : e.completes = true) : s.Lapses p e ↔
    ∀ token stage, s.refreshing = some ⟨token, stage, true⟩ → s.Leaves (s.step p e) := by
  constructor
  · exact fun hlapses token stage hr => hlapses h ⟨_, hr, rfl⟩
  · rintro hleaves - ⟨⟨token, stage, overtaken⟩, hr, ho⟩
    dsimp only at ho
    rw [ho] at hr
    exact hleaves token stage hr

theorem Leaves.of_eq {s' : AuthProvider} (h : s' = s) : s.Leaves s' := by
  rw [h]
  exact ⟨rfl, rfl, rfl⟩

/-- An answer that is taken shows, since its tokens are new. -/
theorem leaves_refreshed_iff (h : s.Sound) {token : String} (hasked : s.refreshing = some ⟨token, .asked, true⟩)
    (tokens : TokenPair) (now : Int) (writes : Bool) (hfresh : tokens.refreshToken ∉ s.issued) :
    s.Leaves (s.refreshed p tokens now writes) ↔ p = .mobile ∧ writes = false := by
  cases p with
  | web =>
    rw [refreshed_web hasked]
    refine iff_of_false (fun hleaves => ?_) (by rintro ⟨⟨⟩, -⟩)
    have hsession : s.session = some (.new tokens now) := hleaves.session.symm
    refine hfresh (h.account.held _ (List.mem_append_left _ ?_))
    rw [current, hsession]
    exact List.mem_singleton_self _
  | mobile =>
    rw [refreshed_mobile hasked]
    cases writes with
    | true =>
      refine iff_of_false (fun hleaves => ?_) (by rintro ⟨-, ⟨⟩⟩)
      exact hfresh (h.stored _ hleaves.stored.symm)
    | false => exact iff_of_true ⟨rfl, rfl, rfl⟩ ⟨rfl, rfl⟩

theorem leaves_kept_iff (h : s.Sound) {token : String} {next : Session} {written : Bool}
    (hkeeping : s.refreshing = some ⟨token, .keeping next written, true⟩) :
    s.Leaves s.kept ↔ written = false ∧ s.SignedOut := by
  rw [kept_of_keeping hkeeping]
  cases written with
  | true =>
    refine iff_of_false (fun hleaves => ?_) (by rintro ⟨⟨⟩, -⟩)
    -- the session being written is not the one held
    have hsession : s.session = some next := hleaves.session.symm
    have hnodup := (account_of_keeping hkeeping h).nodup
    rw [current, hsession] at hnodup
    exact (List.nodup_cons.1 hnodup).1 List.mem_cons_self
  | false => exact leaves_signOut_iff.trans (and_iff_right rfl).symm

theorem lapses_refreshed_iff (h : s.Sound) (tokens : TokenPair) (now : Int) (writes : Bool)
    (hfresh : tokens.refreshToken ∉ s.issued) :
    s.Lapses p (.refreshed tokens now writes) ↔ s.Spares p (.refreshed tokens now writes) := by
  rw [lapses_iff rfl]
  constructor
  · exact fun hleaves token hr => (leaves_refreshed_iff h hr tokens now writes hfresh).1 (hleaves token _ hr)
  · rintro hspares token (_ | ⟨next, written⟩) hr
    · exact (leaves_refreshed_iff h hr tokens now writes hfresh).2 (hspares token hr)
    · refine Leaves.of_eq ?_
      change s.refreshed p tokens now writes = s
      unfold refreshed
      rw [hr]

theorem lapses_refused_iff : s.Lapses p .refused ↔ s.Spares p .refused := by
  rw [lapses_iff rfl]
  constructor
  · intro hleaves token hr
    have h := hleaves token _ hr
    change s.Leaves s.refused at h
    rw [refused_of_asked hr] at h
    exact leaves_signOut_iff.1 h
  · rintro hspares token (_ | ⟨next, written⟩) hr
    · change s.Leaves s.refused
      rw [refused_of_asked hr]
      exact leaves_signOut_iff.2 (hspares token hr)
    · refine Leaves.of_eq ?_
      change s.refused = s
      unfold refused
      rw [hr]

theorem lapses_kept_iff (h : s.Sound) : s.Lapses p .kept ↔ s.Spares p .kept := by
  rw [lapses_iff rfl]
  constructor
  · exact fun hleaves token next written hr => (leaves_kept_iff h hr).1 (hleaves token _ hr)
  · rintro hspares token (_ | ⟨next, written⟩) hr
    · refine Leaves.of_eq ?_
      change s.kept = s
      unfold kept
      rw [hr]
    · exact (leaves_kept_iff h hr).2 (hspares token next written hr)

/-! ## Runs -/

/-- A token that is shown to be renewed is shown for the first time. -/
theorem nodup_getToken (h : s.Sound) (hnodup : s.presented.Nodup) (now : Int) : (s.getToken now).2.presented.Nodup := by
  rcases getToken_cases now s with hs | ⟨x, hsession, hrefreshing, hs⟩ <;> rw [hs]
  · exact hnodup
  · rw [← List.concat_eq_append, List.nodup_concat, and_iff_left hnodup]
    intro hshown
    have hrenewing := h.account.spent x.refreshToken (by rw [current, hsession, Option.map_some]) hshown
    rw [renewing, hrefreshing] at hrenewing
    cases hrenewing

/-- A logout shows the session's token, a second time if it is being renewed. -/
theorem nodup_logout_iff (h : s.Sound) (hnodup : s.presented.Nodup) : s.logout.presented.Nodup ↔ s.Spares p .logout := by
  change (s.presented ++ s.current.toList).Nodup ↔ ∀ t, s.current = some t → s.renewing ≠ some t
  have haccount := h.account
  cases hs : s.current with
  | none => simpa using hnodup
  | some t =>
    rw [hs] at haccount
    change (s.presented ++ [t]).Nodup ↔ _
    rw [← List.concat_eq_append, List.nodup_concat, and_iff_left hnodup, haccount.mem_presented_iff]
    simp

theorem refreshed_presented (tokens : TokenPair) (now : Int) (writes : Bool) (s : AuthProvider) :
    (s.refreshed p tokens now writes).presented = s.presented := by
  unfold refreshed
  split
  · cases p <;> rfl
  · rfl

theorem refused_presented (s : AuthProvider) : s.refused.presented = s.presented := by
  unfold refused
  split <;> rfl

theorem kept_presented (s : AuthProvider) : s.kept.presented = s.presented := by
  unfold kept
  split <;> rfl

theorem login_presented (tokens : TokenPair) (user : UserId) (now : Int) (writes : Bool) (s : AuthProvider) :
    (s.login p tokens user now writes).presented = s.presented := by
  cases p with
  | web => rfl
  | mobile => cases writes <;> rfl

theorem adopted_presented (i : Nat) (s : AuthProvider) : (s.adopted i).presented = s.presented := by
  unfold adopted
  split <;> rfl

/-- In a state where the tokens add up, a step shows no token twice and lets an overtaken refresh lapse exactly if it spares
the session. -/
theorem step_iff (h : s.Sound) (hnodup : s.presented.Nodup) {e : Event} (hissues : s.Issues e) :
    s.Lapses p e ∧ (s.step p e).presented.Nodup ↔ s.Spares p e := by
  cases e with
  | getToken now => exact iff_of_true ⟨by rintro ⟨⟩, nodup_getToken h hnodup now⟩ trivial
  | refreshed tokens now writes =>
    rw [← lapses_refreshed_iff h tokens now writes hissues]
    exact and_iff_left (by rwa [step, refreshed_presented])
  | refused =>
    rw [← lapses_refused_iff]
    exact and_iff_left (by rwa [step, refused_presented])
  | kept =>
    rw [← lapses_kept_iff h]
    exact and_iff_left (by rwa [step, kept_presented])
  | login tokens user now writes => exact iff_of_true ⟨by rintro ⟨⟩, by rwa [step, login_presented]⟩ trivial
  | adopted i => exact iff_of_true ⟨by rintro ⟨⟩, by rwa [step, adopted_presented]⟩ trivial
  | logout =>
    rw [← nodup_logout_iff h hnodup]
    exact and_iff_right (by rintro ⟨⟩)

/-- In a run from the app's start no refresh token is shown twice and every overtaken refresh lapses, exactly when every step
spares the session. -/
theorem once_and_lapses_iff (p : Platform) (stored : Option Session) (es : List Event)
    (hissues : Along (step p) Issues (new stored) es) :
    Always (step p) (fun s => s.presented.Nodup) (new stored) es ∧ Along (step p) (Lapses p) (new stored) es ↔
      Along (step p) (Spares p) (new stored) es :=
  always_along_iff_of_along (fun _ _ h hissues => h.step hissues) (fun _ _ h hnodup hissues => step_iff h hnodup hissues)
    (sound_new stored) List.nodup_nil hissues

/-- A session that has expired is renewed, and its owner signs out after that. -/
theorem once_and_lapses_renewed :
    let s := new (some ⟨"a", "r", 0⟩)
    let es := [.getToken 0, .refreshed ⟨"b", "s", 900⟩ 10 true, .kept, .logout]
    Always (step .mobile) (fun s => s.presented.Nodup) s es ∧ Along (step .mobile) (Lapses .mobile) s es := by
  refine (once_and_lapses_iff .mobile (some ⟨"a", "r", 0⟩) _ ?_).2 ?_
  · exact ⟨trivial, (by decide : "s" ∉ ["r"]), trivial, trivial, trivial⟩
  · refine ⟨trivial, ?_, ?_, ?_, trivial⟩
    · rintro t ⟨⟩
    · rintro t next written ⟨⟩
    · rintro t - ⟨⟩

/-- Signed out while the session is being renewed, somebody is signed in again by the answer. -/
theorem not_lapses_logout :
    ¬ (Always (step .web) (fun s => s.presented.Nodup) (new (some ⟨"a", "r", 0⟩))
        [.getToken 0, .logout, .refreshed ⟨"b", "s", 900⟩ 10 true] ∧
      Along (step .web) (Lapses .web) (new (some ⟨"a", "r", 0⟩))
        [.getToken 0, .logout, .refreshed ⟨"b", "s", 900⟩ 10 true]) := by
  rintro ⟨-, -, -, hlapses, -⟩
  cases (hlapses rfl ⟨_, rfl, rfl⟩).session

end AuthProvider

end Genzh.Client.Tokens
