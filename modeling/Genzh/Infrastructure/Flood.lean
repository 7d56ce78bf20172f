/-
The flood guard: whether one account is posting like a person or like a script. Two rules share the entry of a
key, one on how many posts there are and one on the same post over and over, and both count in 32 bits: a
counter that is full starts again at zero.
-/
import Genzh.Lib.Keyed
import Genzh.Lib.Windows
import Genzh.Domain.Spam

namespace Genzh.Infrastructure.Flood

open Genzh.Lib Genzh.Domain

/-- The verdict on one post. -/
inductive Verdict where
  /-- Nothing suspicious; carry on. -/
  | allowed
  /-- Too many in too short a window. -/
  | tooFast (retryAfter : Nat)
  /-- The same content, again, too soon. -/
  | repeated (retryAfter : Nat)
  deriving DecidableEq, Repr

namespace Verdict

/-- Did this verdict let the post through? -/
def isAllowed : Verdict → Bool
  | allowed => true
  | tooFast _ | repeated _ => false

/-- Is it a refusal of the same content? -/
def isRepeated : Verdict → Bool
  | repeated _ => true
  | allowed | tooFast _ => false

end Verdict

/-- How much is too much. -/
structure FloodPolicy where
  /-- Posts allowed per window. -/
  burst : UInt32
  /-- The burst window. -/
  window : Nat
  /-- How long an identical post is remembered. -/
  repeatWindow : Nat
  /-- How many identical posts within that window are tolerated. -/
  repeats : UInt32

/-- What one key has been doing lately. -/
structure Recent where
  windowStarted : Nat
  count : UInt32
  /-- The last thing said, and when. -/
  last : Option (UInt64 × Nat)
  /-- How many times in a row that same thing has been said since. -/
  repeats : UInt32
  deriving DecidableEq, Repr

/-- Key count above which a sweep runs before the next insert. -/
def sweepThreshold : Nat := 10000

namespace FloodPolicy

variable (p : FloodPolicy)

/-- The entry a post at `now` finds, once its window has been looked at. -/
def opened (now : Nat) (entry : Option Recent) : Recent :=
  let entry := entry.getD { windowStarted := now, count := 0, last := none, repeats := 0 }
  if p.window ≤ now - entry.windowStarted then { entry with windowStarted := now, count := 0 } else entry

/-- Is this what was said last, not long ago? -/
def isRepeat (now : Nat) (digest : UInt64) (entry : Recent) : Bool :=
  entry.last.any fun (last, at_) => last = digest && decide (now - at_ < p.repeatWindow)

/-- Record one post and report the verdict. Repetition is decided before the burst rule, because a refused post must
not also consume the burst budget. -/
def visit (now : Nat) (digest : UInt64) (entry : Option Recent) : Verdict × Recent :=
  let entry := p.opened now entry
  let repeated := p.isRepeat now digest entry
  let age := entry.last.elim 0 fun (_, at_) => now - at_
  let entry := { entry with repeats := if repeated then entry.repeats + 1 else 0, last := some (digest, now) }
  if repeated && p.repeats ≤ entry.repeats then (.repeated (p.repeatWindow - age), entry)
  else
    let entry := { entry with count := entry.count + 1 }
    if p.burst < entry.count then (.tooFast (p.window - (now - entry.windowStarted)), entry) else (.allowed, entry)

/-- How long ago an entry was last of use. -/
def isIdle (now : Nat) (entry : Recent) : Bool :=
  let idle := max p.window p.repeatWindow
  match entry.last with
  | some (_, at_) => !decide (now - at_ < idle)
  | none => !decide (now - entry.windowStarted < idle)

/-- The guard over posts whose content `digest` fingerprints: its entries are kept by key, and dropped when they have
gone quiet. -/
def keeper (digest : String → UInt64) : Keeper Recent String String Verdict where
  visit now _ content entry := p.visit now (digest content) entry
  stale := p.isIdle
  threshold := sweepThreshold

/-- Is this post one too many of the same? -/
def isOneTooMany (now : Nat) (digest : UInt64) (entry : Recent) : Bool :=
  p.isRepeat now digest entry && p.repeats ≤ entry.repeats + 1

/-- Has this post to be counted by a counter that is full? -/
def full (now : Nat) (digest : UInt64) (entry : Option Recent) : Prop :=
  (p.isRepeat now digest (p.opened now entry) = true ∧ (p.opened now entry).repeats = 0xFFFFFFFF) ∨
    (p.isOneTooMany now digest (p.opened now entry) = false ∧ (p.opened now entry).count = 0xFFFFFFFF)

/-- Does this post fill a counter of its key? -/
def fills (digest : String → UInt64) (recent : Map String Recent) : Visit String String → Prop
  | .check key content now => p.full now (digest content) (recent.get key)
  | .sweep _ => False

instance (now : Nat) (digest : UInt64) (entry : Option Recent) : Decidable (p.full now digest entry) :=
  inferInstanceAs (Decidable (_ ∨ _))

instance (digest : String → UInt64) (recent : Map String Recent) : (v : Visit String String) → Decidable (p.fills digest recent v)
  | .check key content now => inferInstanceAs (Decidable (p.full now (digest content) (recent.get key)))
  | .sweep _ => inferInstanceAs (Decidable False)

/-! ## What a post does -/

variable {p} {now : Nat} {d : UInt64} {entry : Option Recent} {e : Recent}

theorem opened_none : p.opened now none = { windowStarted := now, count := 0, last := none, repeats := 0 } := by
  show (if p.window ≤ now - now then (⟨now, 0, none, 0⟩ : Recent) else ⟨now, 0, none, 0⟩) = _
  exact ite_self _

theorem opened_some : p.opened now (some e) = if p.window ≤ now - e.windowStarted then { e with windowStarted := now, count := 0 } else e := rfl

@[simp] theorem last_opened : (p.opened now (some e)).last = e.last := by
  rw [opened_some]
  split <;> rfl

@[simp] theorem repeats_opened : (p.opened now (some e)).repeats = e.repeats := by
  rw [opened_some]
  split <;> rfl

/-- A post that is one too many is refused as a repeat, and counts for nothing. -/
theorem visit_oneTooMany (h : p.isOneTooMany now d (p.opened now entry) = true) :
    (∃ wait, (p.visit now d entry).1 = .repeated wait) ∧
      (p.visit now d entry).2 = { p.opened now entry with repeats := (p.opened now entry).repeats + 1, last := some (d, now) } := by
  obtain ⟨hrepeat, hmany⟩ := Bool.and_eq_true_iff.1 h
  simp only [visit, hrepeat, if_true, Bool.true_and, hmany]
  exact ⟨⟨_, rfl⟩, trivial⟩

/-- Every other post is counted, and allowed while the count is within the burst. -/
theorem visit_counted (h : p.isOneTooMany now d (p.opened now entry) = false) :
    ((p.visit now d entry).1.isAllowed = true ↔ (p.opened now entry).count + 1 ≤ p.burst) ∧
      (p.visit now d entry).1.isRepeated = false ∧
      (p.visit now d entry).2 =
        { windowStarted := (p.opened now entry).windowStarted
          count := (p.opened now entry).count + 1
          last := some (d, now)
          repeats := if p.isRepeat now d (p.opened now entry) then (p.opened now entry).repeats + 1 else 0 } := by
  have hguard : (p.isRepeat now d (p.opened now entry) &&
      decide (p.repeats ≤ if p.isRepeat now d (p.opened now entry) then (p.opened now entry).repeats + 1 else 0)) = false := by
    unfold isOneTooMany at h
    cases hrepeat : p.isRepeat now d (p.opened now entry)
    · rfl
    · rw [hrepeat] at h
      simpa using h
  simp only [visit, hguard, Bool.false_eq_true, if_false]
  by_cases hb : p.burst < (p.opened now entry).count + 1
  · rw [if_pos hb]
    exact ⟨⟨fun h' => (nomatch h'), fun h' => absurd hb (UInt32.not_lt.2 h')⟩, rfl, rfl⟩
  · rw [if_neg hb]
    exact ⟨⟨fun _ => UInt32.not_lt.1 hb, fun _ => rfl⟩, rfl, rfl⟩

/-- What an entry is like that was visited before `now`. -/
def Dated (now : Nat) (e : Recent) : Prop := ∃ d at_, e.last = some (d, at_) ∧ e.windowStarted ≤ at_ ∧ at_ ≤ now

theorem opened_started (h : ∀ e, entry = some e → Dated now e) : (p.opened now entry).windowStarted ≤ now := by
  cases entry with
  | none => rw [opened_none]
  | some e =>
    obtain ⟨_, at_, -, hstarted, hat⟩ := h e rfl
    rw [opened_some]
    split
    · exact le_rfl
    · exact hstarted.trans hat

theorem last_visit : (p.visit now d entry).2.last = some (d, now) := by
  rcases h : p.isOneTooMany now d (p.opened now entry)
  · rw [(visit_counted h).2.2]
  · rw [(visit_oneTooMany h).2]

theorem windowStarted_visit : (p.visit now d entry).2.windowStarted = (p.opened now entry).windowStarted := by
  rcases h : p.isOneTooMany now d (p.opened now entry)
  · rw [(visit_counted h).2.2]
  · rw [(visit_oneTooMany h).2]

/-- A stale entry has neither a window nor a post to remember. -/
theorem opened_stale (hdated : Dated now e) (h : p.isIdle now e = true) :
    (p.opened now (some e)).windowStarted = now ∧ (p.opened now (some e)).count = 0 ∧
      ∀ d, p.isRepeat now d (p.opened now (some e)) = false := by
  obtain ⟨d', at_, hlast, hstarted, -⟩ := hdated
  unfold isIdle at h
  rw [hlast] at h
  simp only [Bool.not_eq_true', decide_eq_false_iff_not, not_lt] at h
  obtain ⟨hw, hr⟩ := max_le_iff.1 h
  refine ⟨?_, ?_, fun d => ?_⟩
  · rw [opened_some, if_pos (by omega)]
  · rw [opened_some, if_pos (by omega)]
  · unfold isRepeat
    rw [last_opened, hlast]
    simp only [Option.any_some, Bool.and_eq_false_imp, decide_eq_false_iff_not, not_lt]
    exact fun _ => hr

theorem visit_stale (hdated : Dated now e) (h : p.isIdle now e = true) : p.visit now d (some e) = p.visit now d none := by
  obtain ⟨hstarted, hcount, hrepeat⟩ := opened_stale hdated h
  have hnone : ∀ d, p.isRepeat now d (p.opened now none) = false := fun d => by rw [opened_none]; rfl
  have hw : (p.opened now none).windowStarted = now := by rw [opened_none]
  have hc : (p.opened now none).count = 0 := by rw [opened_none]
  simp only [visit, hrepeat d, hnone d, hstarted, hcount, hw, hc, Bool.false_and, Bool.false_eq_true, if_false]

theorem lawful {digest : String → UInt64} : (p.keeper digest).Lawful Dated where
  keeps_valid now _ content entry h :=
    ⟨digest content, now, last_visit, by
      show (p.visit now (digest content) entry).2.windowStarted ≤ now
      rw [windowStarted_visit]
      exact opened_started h, le_rfl⟩
  valid_later _ _ _ hle h := by
    obtain ⟨d, at_, hlast, hstarted, hat⟩ := h
    exact ⟨d, at_, hlast, hstarted, hat.trans hle⟩
  stale_later now now' e hle h := by
    rcases hlast : e.last with _ | ⟨d, at_⟩
    all_goals
      simp only [keeper, isIdle, hlast, Bool.not_eq_true', decide_eq_false_iff_not, not_lt] at h ⊢
      omega
  stale _ _ _ _ hdated h := visit_stale hdated h

/-! ## The posts of a key -/

/-- A post, its window and its verdict. -/
abbrev Mark := Window × Nat × String × Verdict

namespace Mark

def time (x : Mark) : Nat := x.2.1

def content (x : Mark) : String := x.2.2.1

def verdict (x : Mark) : Verdict := x.2.2.2

def admitted (x : Mark) : Bool := x.verdict.isAllowed

/-- Does the post count against the burst? -/
def charged (x : Mark) : Bool := !x.verdict.isRepeated

theorem charged_of_admitted : ∀ x : Mark, admitted x = true → charged x = true := by
  rintro ⟨_, _, _, _ | _ | _⟩ h
  · rfl
  · cases h
  · cases h

theorem countP_admitted (posts : List Mark) :
    posts.countP admitted = (posts.map Prod.snd).countP fun x => x.2.2.isAllowed := by
  rw [List.countP_map]
  rfl

end Mark

/-- What the guard promises about the posts of one key, in order, `same` being when two of them say the same. -/
structure Guarded (p : FloodPolicy) (same : String → String → Prop) (marks : List Mark) : Prop where
  /-- No window lets more than a burst through. -/
  window : ∀ n, marks.countP (fun x => Mark.admitted x && inWindow n x) ≤ p.burst.toNat
  /-- No interval as long as a window lets more than two through. -/
  interval : ∀ t, marks.countP (fun x => Mark.admitted x && inInterval Prod.fst p.window t x) ≤ 2 * p.burst.toNat
  /-- A post that is not refused as a repeat goes through while its window has room for it, and the refused repeats
  before it have taken none. -/
  spared : ∀ before x after, marks = before ++ x :: after → Mark.charged x = true →
    (Mark.admitted x = true ↔ before.countP (fun y => Mark.charged y && inWindow x.1.number y) < p.burst.toNat)
  /-- Saying the same over and over, each time within the repeat window, gets few posts through. -/
  repeats : ∀ before posts after, marks = before ++ posts ++ after → (∀ x ∈ posts, ∀ y ∈ posts, same (Mark.content x) (Mark.content y)) →
    posts.IsChain (fun x y => Mark.time y - Mark.time x < p.repeatWindow) → posts.countP Mark.admitted ≤ max 1 p.repeats.toNat

/-- The posts of a key in a run, with their windows. -/
def marks (p : FloodPolicy) (digest : String → UInt64) (key : String) (vs : List (Visit String String)) : List Mark :=
  windowed Prod.fst p.window ((p.keeper digest).history key .empty vs)

/-! ## Counting -/

section Counting

variable {digest : String → UInt64} {key : String} {vs : List (Nat × String)}

/-- What an entry shows. -/
def meter (entry : Option Recent) : Option (Nat × Nat) := entry.map fun e => (e.windowStarted, e.count.toNat)

theorem meter_opened : ((p.opened now entry).windowStarted, (p.opened now entry).count.toNat) = meterAt p.window (meter entry) now := by
  cases entry with
  | none =>
    rw [opened_none]
    rfl
  | some e =>
    show ((p.opened now (some e)).windowStarted, (p.opened now (some e)).count.toNat) =
      if p.window ≤ now - e.windowStarted then (now, 0) else (e.windowStarted, e.count.toNat)
    rw [opened_some]
    split <;> rfl

/-- A post is counted unless it is refused as a repeat. -/
theorem visit_meter (hroom : ¬ p.full now d entry) :
    (p.visit now d entry).2.windowStarted = (p.opened now entry).windowStarted ∧
      (p.visit now d entry).2.count.toNat =
        (p.opened now entry).count.toNat + if !(p.visit now d entry).1.isRepeated then 1 else 0 := by
  refine ⟨windowStarted_visit, ?_⟩
  rcases h : p.isOneTooMany now d (p.opened now entry)
  · obtain ⟨-, hcharged, hafter⟩ := visit_counted h
    have hne : (p.opened now entry).count ≠ 0xFFFFFFFF := fun heq => hroom (.inr ⟨h, heq⟩)
    rw [hcharged, hafter]
    exact toNat_succ hne
  · obtain ⟨⟨wait, hrefused⟩, hafter⟩ := visit_oneTooMany h
    rw [hrefused, hafter]
    rfl

/-- While no counter is full, the entry of a key counts the posts of its window that were not refused as repeats. -/
theorem meters (hroom : (p.keeper digest).Throughout (fun now content o => ¬ p.full now (digest content) o) key none vs) :
    Meters Prod.fst p.window Mark.charged ((p.keeper digest).alone key none vs) (meter ((p.keeper digest).entryAfter key vs)) := by
  induction vs using List.reverseRecOn with
  | nil => exact rfl
  | append_singleton vs v ih =>
    obtain ⟨hbefore, hnext⟩ := Keeper.throughout_snoc.1 hroom
    rw [Keeper.entryAfter_snoc, Keeper.alone_snoc]
    obtain ⟨hstarted, hcount⟩ := visit_meter hnext
    have hmeter : meter (some (p.visit v.1 (digest v.2) ((p.keeper digest).entryAfter key vs)).2) =
        some ((meterAt p.window (meter ((p.keeper digest).entryAfter key vs)) v.1).1,
          (meterAt p.window (meter ((p.keeper digest).entryAfter key vs)) v.1).2 +
            if !(p.visit v.1 (digest v.2) ((p.keeper digest).entryAfter key vs)).1.isRepeated then 1 else 0) := by
      rw [← meter_opened, ← hcount, ← hstarted]
      rfl
    exact hmeter ▸ (ih hbefore).snoc _

/-- A post that is not refused as a repeat goes through while those counted before it leave room. -/
theorem counted (hroom : (p.keeper digest).Throughout (fun now content o => ¬ p.full now (digest content) o) key none vs)
    {before after : List Mark} {x : Mark}
    (h : windowed Prod.fst p.window ((p.keeper digest).alone key none vs) = before ++ x :: after) (hcharged : Mark.charged x = true) :
    Mark.admitted x = true ↔ before.countP (fun y => Mark.charged y && inWindow x.1.number y) < p.burst.toNat := by
  obtain ⟨earlier, later, hsplit, rfl, hwindow⟩ := windowed_split h
  obtain ⟨vs₁, vs₂, rfl, rfl, hverdict⟩ := Keeper.alone_split hsplit
  rw [List.append_cons] at hroom
  obtain ⟨hbefore, hnext⟩ := Keeper.throughout_snoc.1 (Keeper.throughout_append.1 hroom).1
  have hcount := ((meters hbefore).reads x.2.1).2
  rw [← meter_opened, ← hwindow] at hcount
  have hx : x.verdict = (p.visit x.2.1 (digest x.2.2.1) ((p.keeper digest).entryAfter key vs₁)).1 := hverdict
  have hfew : p.isOneTooMany x.2.1 (digest x.2.2.1) (p.opened x.2.1 ((p.keeper digest).entryAfter key vs₁)) = false := by
    by_contra hmany
    obtain ⟨⟨wait, hrefused⟩, -⟩ := visit_oneTooMany (Bool.of_not_eq_false hmany)
    rw [Mark.charged, hx, hrefused] at hcharged
    cases hcharged
  have hne : (p.opened x.2.1 ((p.keeper digest).entryAfter key vs₁)).count ≠ 0xFFFFFFFF := fun heq => hnext (.inr ⟨hfew, heq⟩)
  rw [Mark.admitted, hx, (visit_counted hfew).1, UInt32.le_iff_toNat_le, toNat_succ hne, ← hcount, Nat.succ_le_iff]

/-! ## Repetition -/

/-- After a post of fingerprint `d` that has been said `r` times again, the same again and again gets no more through than
`p.repeats` leaves. -/
theorem repeats_le (o : Recent) (at_ : Nat) (hlast : o.last = some (d, at_))
    (hroom : (p.keeper digest).Throughout (fun now content o => ¬ p.full now (digest content) o) key (some o) vs)
    (hsame : ∀ v ∈ vs, digest v.2 = d) (hchain : (at_ :: vs.map Prod.fst).IsChain fun t t' => t' - t < p.repeatWindow) :
    ((p.keeper digest).alone key (some o) vs).countP (fun x => x.2.2.isAllowed) ≤ p.repeats.toNat - 1 - o.repeats.toNat := by
  induction vs generalizing o at_ with
  | nil => exact Nat.zero_le _
  | cons v vs ih =>
    obtain ⟨hnext, hrest⟩ := hroom
    rw [List.map_cons, List.isChain_cons_cons] at hchain
    have hd : digest v.2 = d := hsame v List.mem_cons_self
    have hrepeat : p.isRepeat v.1 (digest v.2) (p.opened v.1 (some o)) = true := by
      unfold isRepeat
      rw [last_opened, hlast]
      simp [hd, hchain.1]
    have hne : o.repeats ≠ 0xFFFFFFFF := fun heq => hnext (.inl ⟨hrepeat, by rw [repeats_opened, heq]⟩)
    have hrepeats : (p.visit v.1 (digest v.2) (some o)).2.repeats.toNat = o.repeats.toNat + 1 := by
      rw [← toNat_succ hne]
      rcases h : p.isOneTooMany v.1 (digest v.2) (p.opened v.1 (some o))
      · rw [(visit_counted h).2.2]
        simp only [hrepeat, if_true, repeats_opened]
      · rw [(visit_oneTooMany h).2]
        simp only [repeats_opened]
    have htail := ih (p.visit v.1 (digest v.2) (some o)).2 v.1 (by rw [last_visit, hd]) hrest
      (fun w hw => hsame w (List.mem_cons_of_mem _ hw)) hchain.2
    rw [hrepeats] at htail
    have hhead : (p.visit v.1 (digest v.2) (some o)).1.isAllowed = true → o.repeats.toNat + 1 < p.repeats.toNat := by
      intro hallowed
      by_contra hmany
      have hle : p.repeats ≤ (p.opened v.1 (some o)).repeats + 1 := by
        rw [UInt32.le_iff_toNat_le, repeats_opened, toNat_succ hne]
        omega
      have hover : p.isOneTooMany v.1 (digest v.2) (p.opened v.1 (some o)) = true := by
        unfold isOneTooMany
        rw [hrepeat, Bool.true_and, decide_eq_true hle]
      obtain ⟨⟨wait, hrefused⟩, -⟩ := visit_oneTooMany hover
      rw [hrefused] at hallowed
      cases hallowed
    show List.countP _ ((v.1, v.2, (p.visit v.1 (digest v.2) (some o)).1) :: (p.keeper digest).alone key
      (some (p.visit v.1 (digest v.2) (some o)).2) vs) ≤ _
    rw [List.countP_cons]
    split
    · rename_i hallowed
      have := hhead hallowed
      omega
    · omega

/-- A run of posts that say the same, each within the repeat window of the one before. -/
theorem repeats_le_max (o : Option Recent)
    (hroom : (p.keeper digest).Throughout (fun now content o => ¬ p.full now (digest content) o) key o vs)
    (hsame : ∀ v ∈ vs, ∀ w ∈ vs, digest v.2 = digest w.2) (hchain : (vs.map Prod.fst).IsChain fun t t' => t' - t < p.repeatWindow) :
    ((p.keeper digest).alone key o vs).countP (fun x => x.2.2.isAllowed) ≤ max 1 p.repeats.toNat := by
  cases vs with
  | nil => exact Nat.zero_le _
  | cons v vs =>
    obtain ⟨-, hrest⟩ := hroom
    have htail := repeats_le (p.visit v.1 (digest v.2) o).2 v.1 last_visit hrest
      (fun w hw => hsame w (List.mem_cons_of_mem _ hw) v List.mem_cons_self) hchain
    have hone : ((p.keeper digest).alone key o (v :: vs)).countP (fun x => x.2.2.isAllowed) ≤
        ((p.keeper digest).alone key (some (p.visit v.1 (digest v.2) o).2) vs).countP (fun x => x.2.2.isAllowed) + 1 := by
      show List.countP _ ((v.1, v.2, (p.visit v.1 (digest v.2) o).1) :: (p.keeper digest).alone key
        (some (p.visit v.1 (digest v.2) o).2) vs) ≤ _
      rw [List.countP_cons]
      split <;> omega
    omega

/-- The same, of posts in the middle of what a key has sent. -/
theorem repeats_within (hroom : (p.keeper digest).Throughout (fun now content o => ¬ p.full now (digest content) o) key none vs)
    {before posts after : List Mark}
    (h : windowed Prod.fst p.window ((p.keeper digest).alone key none vs) = before ++ posts ++ after)
    (hsame : ∀ x ∈ posts, ∀ y ∈ posts, digest (Mark.content x) = digest (Mark.content y))
    (hchain : posts.IsChain fun x y => Mark.time y - Mark.time x < p.repeatWindow) :
    posts.countP Mark.admitted ≤ max 1 p.repeats.toNat := by
  -- the visits are cut where the posts begin and end, and those between start from whatever entry there is by then
  have hsplit := congrArg (List.map Prod.snd) h
  rw [map_windowed, List.map_append, List.map_append, List.append_assoc] at hsplit
  obtain ⟨vs₁, rest, rfl, -, hrest⟩ := Keeper.alone_eq_append hsplit
  obtain ⟨vs₂, vs₃, rfl, hposts, -⟩ := Keeper.alone_eq_append hrest.symm
  have hroom₂ := (Keeper.throughout_append.1 (Keeper.throughout_append.1 hroom).2).1
  have hvisits : (posts.map Prod.snd).map (fun x => (x.1, x.2.1)) = vs₂ := by
    rw [hposts]
    exact Keeper.map_visit_alone
  rw [Mark.countP_admitted, hposts]
  refine repeats_le_max _ hroom₂ ?_ ?_
  · intro v hv w hw
    rw [← hvisits, List.map_map] at hv hw
    obtain ⟨x, hx, rfl⟩ := List.mem_map.1 hv
    obtain ⟨y, hy, rfl⟩ := List.mem_map.1 hw
    exact hsame x hx y hy
  · rw [← hvisits, List.map_map, List.map_map, List.isChain_map]
    exact hchain

end Counting

/-- In every run whose clock does not go back and in which no counter is filled, every key is guarded, and its verdicts
do not depend on the posts of the others. -/
theorem flood_guarded (p : FloodPolicy) (toLowercase : Char → List Char) (hash : String → UInt64) (vs : List (Visit String String))
    (hsorted : (vs.map Visit.now).Pairwise (· ≤ ·))
    (hroom : Along (p.keeper (digest toLowercase hash)).step (fun recent v => ¬ p.fills (digest toLowercase hash) recent v) .empty vs)
    (key : String) :
    Guarded p (fun a b => normalize toLowercase a = normalize toLowercase b) (p.marks (digest toLowercase hash) key vs) ∧
      p.marks (digest toLowercase hash) key vs = p.marks (digest toLowercase hash) key (vs.filter (Visit.isTo key)) := by
  -- no counter of this key's own entry is filled, swept or not: an entry that could be swept starts its counters again
  have hthrough : (p.keeper (digest toLowercase hash)).Throughout (fun now content o => ¬ p.full now (digest toLowercase hash content) o)
      key none (vs.filterMap (Visit.paidTo key)) := by
    refine Keeper.throughout_of_along lawful ?_ (.inl rfl) (fun r hr => nomatch hr) (fun _ _ => Nat.zero_le _) hsorted
      (hroom.mono ?_)
    · intro now content e hdated hstale _ hfull
      obtain ⟨-, hcount, hrepeat⟩ := opened_stale hdated hstale
      rcases hfull with ⟨hr, -⟩ | ⟨-, hc⟩
      · rw [hrepeat] at hr
        cases hr
      · rw [hcount] at hc
        cases hc
    · rintro recent v hv content now rfl
      exact hv
  unfold marks
  rw [← Keeper.history_filter lawful hsorted, Keeper.history_empty lawful hsorted]
  have hsortedVisits := Keeper.sorted_visits (k := key) hsorted
  generalize vs.filterMap (Visit.paidTo key) = visits at hthrough hsortedVisits ⊢
  rw [← Keeper.map_time_alone] at hsortedVisits
  have hwindow : ∀ n, (windowed Prod.fst p.window ((p.keeper (digest toLowercase hash)).alone key none visits)).countP
      (fun x => Mark.admitted x && inWindow n x) ≤ p.burst.toNat := by
    refine countP_inWindow_le Mark.charged (fun x _ => Mark.charged_of_admitted x) fun before x after h hx => ?_
    exact (counted hthrough h (Mark.charged_of_admitted x hx)).1 hx
  refine ⟨⟨hwindow, countP_inInterval_le (pairwise_windowed hsortedVisits) hwindow, fun before x after h hx => counted hthrough h hx, ?_⟩, rfl⟩
  intro before posts after h hsame hchain
  exact repeats_within hthrough h (fun x hx y hy => congrArg hash (hsame x hx y hy)) hchain

/-- Two posters, one of whom says the same twice. -/
def twoPosters : List (Visit String String) :=
  [.check "ana" "hi there" 0, .check "ana" "Hi  THERE" 1, .check "ben" "hi there" 2, .sweep 40, .check "ana" "bye" 40]

theorem flood_guarded_for_two :
    Guarded ⟨3, 10, 30, 1⟩ (fun a b => normalize (fun c => [c.toLower]) a = normalize (fun c => [c.toLower]) b)
        (marks ⟨3, 10, 30, 1⟩ (digest (fun c => [c.toLower]) fun s => s.length.toUInt64) "ana" twoPosters) ∧
      marks ⟨3, 10, 30, 1⟩ (digest (fun c => [c.toLower]) fun s => s.length.toUInt64) "ana" twoPosters =
        marks ⟨3, 10, 30, 1⟩ (digest (fun c => [c.toLower]) fun s => s.length.toUInt64) "ana" (twoPosters.filter (Visit.isTo "ana")) :=
  flood_guarded ⟨3, 10, 30, 1⟩ (fun c => [c.toLower]) (fun s => s.length.toUInt64) twoPosters (by decide) (by decide +kernel) "ana"

/-! ## A counter is filled -/

/-- One post of a kind in ten, and a client that does not stop. -/
def onceInAWhile : FloodPolicy := ⟨5, 10, 30, 1⟩

/-- The same post again and again. -/
def persistent (n : Nat) : List (Visit String String) := List.replicate n (.check "ana" "hi" 0)

theorem sorted_persistent (n : Nat) : ((persistent n).map Visit.now).Pairwise (· ≤ ·) := by
  unfold persistent
  rw [List.map_replicate, List.pairwise_replicate]
  exact .inr le_rfl

variable (digest : String → UInt64)

/-- The entry of a client that has said the same `n` times again, all but the first time in vain. -/
def said (n : Nat) : Recent := { windowStarted := 0, count := 1, last := some (digest "hi", 0), repeats := UInt32.ofNat n }

theorem opened_said (n : Nat) : onceInAWhile.opened 0 (some (said digest n)) = said digest n := rfl

theorem isRepeat_said (n : Nat) : onceInAWhile.isRepeat 0 (digest "hi") (said digest n) = true := by
  simp [isRepeat, said, onceInAWhile]

theorem repeats_said (n : Nat) : (said digest n).repeats + 1 = UInt32.ofNat (n + 1) := by
  show UInt32.ofNat n + 1 = _
  rw [UInt32.ofNat_add]
  rfl

theorem entryFrom_persistent (n : Nat) (hn : n < 2 ^ 32) :
    (onceInAWhile.keeper digest).entryFrom "ana" (some (said digest 0)) (List.replicate n (0, "hi")) = some (said digest n) := by
  induction n with
  | zero => rfl
  | succ n ih =>
    have hover : onceInAWhile.isOneTooMany 0 (digest "hi") (onceInAWhile.opened 0 (some (said digest n))) = true := by
      have hmany : (1 : UInt32) ≤ UInt32.ofNat (n + 1) := by
        rw [UInt32.le_iff_toNat_le, UInt32.toNat_ofNat_of_lt' hn]
        exact Nat.succ_pos n
      unfold isOneTooMany
      rw [opened_said, isRepeat_said, repeats_said, Bool.true_and]
      exact decide_eq_true hmany
    have hvisit := (visit_oneTooMany hover).2
    rw [opened_said, repeats_said] at hvisit
    rw [List.replicate_succ', Keeper.entryFrom, List.foldl_append]
    change some (onceInAWhile.visit 0 (digest "hi")
      ((onceInAWhile.keeper digest).entryFrom "ana" (some (said digest 0)) (List.replicate n (0, "hi")))).2 = _
    rw [ih (by omega), hvisit]
    rfl

/-- With the counter full the same again starts it anew, and goes through. -/
theorem allowed_said {n : Nat} (hfull : UInt32.ofNat (n + 1) = 0) :
    (onceInAWhile.visit 0 (digest "hi") (some (said digest n))).1 = .allowed := by
  have hfew : onceInAWhile.isOneTooMany 0 (digest "hi") (onceInAWhile.opened 0 (some (said digest n))) = false := by
    unfold isOneTooMany
    rw [opened_said, repeats_said, hfull]
    exact Bool.and_false _
  have hallowed := (visit_counted hfew).1.2 (by decide : (1 : UInt32) + 1 ≤ 5)
  revert hallowed
  rcases (onceInAWhile.visit 0 (digest "hi") (some (said digest n))).1 with _ | _ | _
  · exact fun _ => rfl
  · intro hallowed
    cases hallowed
  · intro hallowed
    cases hallowed

theorem paid_persistent (n : Nat) : (persistent n).filterMap (Visit.paidTo "ana") = List.replicate n (0, "hi") := by
  have hpaid : Visit.paidTo "ana" (.check "ana" "hi" 0) = some (0, "hi") := rfl
  unfold persistent
  rw [List.filterMap_replicate_of_some hpaid]

/-- All that is posted is one text at one time. -/
theorem visits_persistent (n : Nat) :
    ((onceInAWhile.keeper digest).history "ana" .empty (persistent n)).map (fun x => (x.1, x.2.1)) = List.replicate n (0, "hi") := by
  rw [Keeper.history_empty lawful (sorted_persistent _), ← paid_persistent]
  exact Keeper.map_visit_alone

/-- The first and the last go through, whatever becomes of those between. -/
theorem history_persistent {n : Nat} (hn : n < 2 ^ 32) (hfull : UInt32.ofNat (n + 1) = 0) :
    (onceInAWhile.keeper digest).history "ana" .empty (persistent (n + 2)) =
      (0, "hi", .allowed) :: ((onceInAWhile.keeper digest).alone "ana" (some (said digest 0)) (List.replicate n (0, "hi")) ++
        [(0, "hi", .allowed)]) := by
  have hfirst : onceInAWhile.visit 0 (digest "hi") none = (.allowed, said digest 0) := rfl
  rw [Keeper.history_empty lawful (sorted_persistent _), paid_persistent, List.replicate_succ, List.replicate_succ']
  change (0, "hi", (onceInAWhile.visit 0 (digest "hi") none).1) ::
    (onceInAWhile.keeper digest).alone "ana" (some (onceInAWhile.visit 0 (digest "hi") none).2) (List.replicate n (0, "hi") ++ [(0, "hi")]) = _
  rw [hfirst, Keeper.alone_append, entryFrom_persistent digest n hn]
  change _ :: (_ ++ [(0, "hi", (onceInAWhile.visit 0 (digest "hi") (some (said digest n))).1)]) = _
  rw [allowed_said digest hfull]

theorem says_again_at {n : Nat} (hn : n < 2 ^ 32) (hfull : UInt32.ofNat (n + 1) = 0) {same : String → String → Prop} (hsame : same "hi" "hi") :
    ¬ Guarded onceInAWhile same (marks onceInAWhile digest "ana" (persistent (n + 2))) := by
  intro h
  have hvisits := visits_persistent digest (n + 2)
  have hmarks : (marks onceInAWhile digest "ana" (persistent (n + 2))).map Prod.snd =
      (onceInAWhile.keeper digest).history "ana" .empty (persistent (n + 2)) := map_windowed
  rw [← hmarks] at hvisits
  rw [history_persistent digest hn hfull] at hmarks
  generalize marks onceInAWhile digest "ana" (persistent (n + 2)) = posts at h hmarks hvisits
  have hall : ∀ x ∈ posts, Mark.time x = 0 ∧ Mark.content x = "hi" := by
    intro x hx
    have hmem : (x.2.1, x.2.2.1) ∈ (posts.map Prod.snd).map fun y => (y.1, y.2.1) :=
      List.mem_map_of_mem (f := fun y : Nat × String × Verdict => (y.1, y.2.1)) (List.mem_map_of_mem hx)
    rw [hvisits] at hmem
    have hpost : (x.2.1, x.2.2.1) = (0, "hi") := List.eq_of_mem_replicate hmem
    exact ⟨congrArg Prod.fst hpost, congrArg Prod.snd hpost⟩
  have hchain : posts.IsChain fun x y => Mark.time y - Mark.time x < onceInAWhile.repeatWindow := by
    refine (List.pairwise_of_forall_mem_list fun x hx y hy => ?_).isChain
    rw [(hall x hx).1, (hall y hy).1]
    decide
  have hfew := h.repeats [] posts [] (List.append_nil _).symm
    (fun x hx y hy => by rw [(hall x hx).2, (hall y hy).2]; exact hsame) hchain
  rw [Mark.countP_admitted, hmarks, List.countP_cons, List.countP_append] at hfew
  simp [Verdict.isAllowed, onceInAWhile] at hfew

/-- The post that fills the counter of repeats goes through, as the first one did. -/
theorem repeats_wrap :
    ((persistent 4294967297).map Visit.now).Pairwise (· ≤ ·) ∧
      ¬ Guarded onceInAWhile (fun a b => normalize (fun c => [c.toLower]) a = normalize (fun c => [c.toLower]) b)
        (marks onceInAWhile (Domain.digest (fun c => [c.toLower]) fun s => s.length.toUInt64) "ana" (persistent 4294967297)) :=
  ⟨sorted_persistent _, says_again_at _ (n := 4294967295) (by decide) (by decide) rfl⟩

end FloodPolicy

end Genzh.Infrastructure.Flood
