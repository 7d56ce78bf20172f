/-
The plan of a message: who is told, and why. Several reasons can apply to one person, and the strongest of them is kept, so
that neither the order in which the reasons are found nor the order in which the collected ones are gone through shows.
Of those with a reason, whoever is known to be reading the room is left out, and whoever is known to have muted it is told
of nothing but a mention. Where that cannot be looked up, it is done without.
-/
import Genzh.Notification.Dispatch

namespace Genzh.Notification

open Genzh.Lib Genzh.Domain Genzh.Infrastructure Genzh.Room Genzh.Social Genzh.Messaging

/-! ## Reasons -/

/-- Somebody, and why they are to be told. -/
abbrev Found := UserId × NotificationKind

/-- One reason for each person, whatever has been found. -/
def considered (author : UserId) (found : List Found) : Map UserId NotificationKind :=
  found.foldl (fun intended f => consider author f.2 intended f.1) .empty

/-- Whom the message names, as far as handles can be resolved. -/
def foundNamed (env : Surroundings) (db : Db) (message : Message) : List UserId :=
  if env.fails .handles then [] else (findIdsByHandles db (mentionedHandles message.content)).map (·.2)

/-- Who else is in the room, as far as that can be listed. -/
def foundAudience (env : Surroundings) (db : Db) (room : Domain.Room) (message : Message) : List UserId :=
  if env.fails .participants then [] else others db room message.authorId

/-- Is the message to everybody in the room? -/
def toEverybody (env : Surroundings) (db : Db) (room : Domain.Room) (message : Message) : Bool :=
  room.isDirect ||
    (mentionsEveryone message.content && decide ((foundAudience env db room message).length ≤ everyoneNotificationCap))

/-- Every reason there is, in the order in which they are found. -/
def reasons (env : Surroundings) (db : Db) (room : Domain.Room) (message : Message) : List Found :=
  (foundNamed env db message).map (·, .mention) ++
    if toEverybody env db room message then (foundAudience env db room message).map (·, addressedKind room) else []

/-- What the collected reasons come to, in the order they are gone through. -/
def plan (env : Surroundings) (room : Domain.Room) (message : Message) (actor : Option UserId)
    (intended : List (Entry UserId NotificationKind)) : List NewNotification :=
  let candidates := intended.map (·.key)
  let reading := if env.fails .attention then [] else env.attention.watching room.id candidates env.clock
  let muted := if env.fails .readState then [] else candidates.filter env.muted
  (intended.filter fun e => !reading.contains e.key && (e.val = .mention || !muted.contains e.key)).map
    fun e => newFor room message actor e.key e.val

section Plan

variable {env : Surroundings} {db : Db} {room : Domain.Room} {message : Message} {actor : Option UserId} {u author : UserId}
  {kind : NotificationKind} {found found' : List Found}

theorem intendedFor_eq : intendedFor env db room message = considered message.authorId (reasons env db room message) := by
  have hcons : ∀ (k : NotificationKind) (ids : List UserId) (m : Map UserId NotificationKind),
      (ids.map (·, k)).foldl (fun intended f => consider message.authorId f.2 intended f.1) m =
        ids.foldl (consider message.authorId k) m := by
    intro k ids m
    rw [List.foldl_map]
  change (if room.isDirect then (foundAudience env db room message).foldl (consider message.authorId .directMessage)
      ((foundNamed env db message).foldl (consider message.authorId .mention) .empty)
    else if mentionsEveryone message.content && decide ((foundAudience env db room message).length ≤ everyoneNotificationCap) then
      (foundAudience env db room message).foldl (consider message.authorId .everyone)
        ((foundNamed env db message).foldl (consider message.authorId .mention) .empty)
    else (foundNamed env db message).foldl (consider message.authorId .mention) .empty) = _
  unfold considered reasons toEverybody addressedKind
  rw [List.foldl_append, hcons]
  rcases room.isDirect
  · simp only [Bool.false_eq_true, if_false, Bool.false_or]
    split
    · rw [hcons]
    · rfl
  · simp only [if_true, Bool.true_or, hcons]

theorem planned_eq : planned env db room message actor =
    plan env room message actor (considered message.authorId (reasons env db room message)).rows := by
  rw [← intendedFor_eq]
  rfl

/-! ## The strongest reason -/

/-- The reason that describes best why somebody is told. -/
structure Strongest (author : UserId) (found : List Found) (u : UserId) (kind : NotificationKind) : Prop where
  other : u ≠ author
  reason : (u, kind) ∈ found
  best : ∀ k, (u, k) ∈ found → rank k ≤ rank kind

/-- No two different reasons are of one rank. -/
def Ranked (found : List Found) : Prop := ∀ f ∈ found, ∀ g ∈ found, rank f.2 = rank g.2 → f.2 = g.2

theorem Ranked.subset (h : Ranked found) (hsub : found' ⊆ found) : Ranked found' :=
  fun f hf g hg => h f (hsub hf) g (hsub hg)

/-- What is held of somebody after one more reason. -/
theorem get_consider {m : Map UserId NotificationKind} {v : UserId} :
    (consider author kind m v).get u =
      if u = v ∧ v ≠ author then
        match m.get u with
        | some held => if rank held < rank kind then some kind else some held
        | none => some kind
      else m.get u := by
  unfold consider
  by_cases hv : v = author
  · rw [if_pos hv, if_neg fun h => h.2 hv]
  · rw [if_neg hv]
    by_cases huv : u = v
    · subst huv
      rw [if_pos ⟨rfl, hv⟩]
      rcases hget : m.get u with _ | held
      · exact Map.get_set_self
      · simp only [outranks, decide_eq_true_eq]
        split
        · exact Map.get_set_self
        · exact hget
    · rw [if_neg fun h => huv h.1]
      rcases m.get v with _ | held
      · exact Map.get_set_of_ne (Ne.symm huv)
      · simp only
        split
        · exact Map.get_set_of_ne (Ne.symm huv)
        · rfl

theorem considered_snoc (f : Found) :
    considered author (found ++ [f]) = consider author f.2 (considered author found) f.1 := by
  unfold considered
  rw [List.foldl_append]
  rfl

/-- A reason that is no stronger, or somebody else's, changes nothing. -/
theorem Strongest.more {f : Found} (h : Strongest author found u kind) (hle : u = f.1 → rank f.2 ≤ rank kind) :
    Strongest author (found ++ [f]) u kind := by
  refine ⟨h.other, List.mem_append_left _ h.reason, fun k hk => ?_⟩
  rcases List.mem_append.1 hk with hbefore | hlast
  · exact h.best k hbefore
  · obtain rfl := List.mem_singleton.1 hlast
    exact hle rfl

/-- One that none before it outranks takes their place. -/
theorem strongest_last (hother : u ≠ author) (hle : ∀ k, (u, k) ∈ found → rank k ≤ rank kind) :
    Strongest author (found ++ [(u, kind)]) u kind := by
  refine ⟨hother, List.mem_append_right _ (List.mem_singleton_self _), fun k hk => ?_⟩
  rcases List.mem_append.1 hk with hbefore | hlast
  · exact hle k hbefore
  · cases List.mem_singleton.1 hlast
    exact Nat.le_refl _

/-- What is kept for somebody is the strongest reason, and where nothing is kept there was none. -/
theorem considered_spec (author : UserId) (found : List Found) (u : UserId) :
    (∀ kind, (considered author found).get u = some kind → Strongest author found u kind) ∧
    ((considered author found).get u = none → u ≠ author → ∀ k, (u, k) ∉ found) := by
  -- the fold takes the reasons from the left, so the last one is what is left to consider
  induction found using List.reverseRecOn with
  | nil => exact ⟨fun _ h => (by cases h), fun _ _ _ h => (by cases h)⟩
  | append_singleton found f ih =>
    obtain ⟨hkept, hnone⟩ := ih
    obtain ⟨v, k⟩ := f
    rw [considered_snoc, get_consider]
    simp only
    by_cases hturn : u = v ∧ v ≠ author
    · obtain ⟨rfl, hother⟩ := hturn
      rw [if_pos ⟨rfl, hother⟩]
      rcases hget : (considered author found).get u with _ | held
      · refine ⟨fun kind h => ?_, fun h => (by cases h)⟩
        cases h
        exact strongest_last hother fun k' h => absurd h (hnone hget hother k')
      · have hheld := hkept held hget
        simp only
        split
        · rename_i hlt
          refine ⟨fun kind h => ?_, fun h => (by cases h)⟩
          cases h
          exact strongest_last hother fun k' h => (hheld.best k' h).trans (Nat.le_of_lt hlt)
        · rename_i hge
          refine ⟨fun kind h => ?_, fun h => (by cases h)⟩
          cases h
          exact hheld.more fun _ => Nat.le_of_not_lt hge
    · rw [if_neg hturn]
      -- it is somebody else's, or the author's own
      have hnotTurn : u ≠ author → u ≠ v := fun hother heq => hturn ⟨heq, heq ▸ hother⟩
      refine ⟨fun kind h => (hkept kind h).more fun heq => absurd heq (hnotTurn (hkept kind h).other), fun h hother k' hk' => ?_⟩
      rcases List.mem_append.1 hk' with hbefore | hlast
      · exact hnone h hother k' hbefore
      · exact hnotTurn hother (Prod.mk.inj (List.mem_singleton.1 hlast)).1

theorem Strongest.unique (hr : Ranked found) {kind' : NotificationKind} (h : Strongest author found u kind)
    (h' : Strongest author found u kind') : kind = kind' :=
  hr _ h.reason _ h'.reason (Nat.le_antisymm (h'.best _ h.reason) (h.best _ h'.reason))

theorem get_considered (hr : Ranked found) : (considered author found).get u = some kind ↔ Strongest author found u kind := by
  obtain ⟨hkept, hnone⟩ := considered_spec author found u
  refine ⟨hkept kind, fun h => ?_⟩
  rcases hget : (considered author found).get u with _ | kind'
  · exact absurd h.reason (hnone hget h.other kind)
  · rw [h.unique hr (hkept kind' hget)]

/-- The order in which the reasons are found does not show. -/
theorem rows_considered (hr : Ranked found) (hperm : found'.Perm found) :
    (considered author found').rows.Perm (considered author found).rows := by
  have hnodup : ∀ m : Map UserId NotificationKind, m.rows.Nodup := fun m => .of_map _ m.nodup
  refine (List.perm_ext_iff_of_nodup (hnodup _) (hnodup _)).2 fun e => ?_
  have hmem : ∀ u k, (u, k) ∈ found' ↔ (u, k) ∈ found := fun u k => hperm.mem_iff
  rw [Map.mem_rows, Map.mem_rows, get_considered (hr.subset hperm.subset), get_considered hr]
  constructor
  · rintro ⟨hother, hreason, hbest⟩
    exact ⟨hother, (hmem _ _).1 hreason, fun k h => hbest k ((hmem _ _).2 h)⟩
  · rintro ⟨hother, hreason, hbest⟩
    exact ⟨hother, (hmem _ _).2 hreason, fun k h => hbest k ((hmem _ _).1 h)⟩

/-! ## Who is told -/

/-- Is somebody with a reason told of it? -/
def tells (env : Surroundings) (room : Domain.Room) (e : Entry UserId NotificationKind) : Bool :=
  !isReading env room e.key && (e.val = .mention || !hasMuted env e.key)

theorem plan_eq (intended : List (Entry UserId NotificationKind)) :
    plan env room message actor intended =
      (intended.filter (tells env room)).map fun e => newFor room message actor e.key e.val := by
  -- both stores are asked about the whole audience at once; each answers about one user at a time
  unfold plan
  refine congrArg (List.map _) (List.filter_congr fun e he => ?_)
  have hkey : e.key ∈ intended.map (·.key) := List.mem_map_of_mem he
  rw [contains_reading hkey, contains_muted hkey]
  rfl

/-- The order in which the collected reasons are gone through does not show. -/
theorem plan_perm {intended intended' : List (Entry UserId NotificationKind)} (h : intended'.Perm intended) :
    (plan env room message actor intended').Perm (plan env room message actor intended) := by
  rw [plan_eq, plan_eq]
  exact (h.filter _).map _

/-- Is somebody to be told of the message for a reason of this kind? -/
def Applies (env : Surroundings) (db : Db) (room : Domain.Room) (message : Message) (u : UserId) (kind : NotificationKind) : Prop :=
  kind = .mention ∧ Named env db message u ∨ kind = addressedKind room ∧ Addressed env db room message u

/-- The kind that describes best why somebody is told. -/
structure AppliesBest (env : Surroundings) (db : Db) (room : Domain.Room) (message : Message) (u : UserId)
    (kind : NotificationKind) : Prop where
  applies : Applies env db room message u kind
  best : ∀ k, Applies env db room message u k → rank k ≤ rank kind

theorem mem_foundNamed (hu : u ≠ message.authorId) : u ∈ foundNamed env db message ↔ Named env db message u := by
  unfold foundNamed Named findIdsByHandles
  rcases env.fails .handles
  · simp only [Bool.false_eq_true, if_false, List.map_map, List.mem_map, Table.mem_select, true_and]
    constructor
    · rintro ⟨account, ⟨hrow, hok⟩, rfl⟩
      obtain ⟨hh, ha⟩ := Bool.and_eq_true_iff.1 hok
      exact ⟨hu, account, hrow, rfl, ha, by simpa using hh⟩
    · rintro ⟨-, account, hrow, rfl, ha, hh⟩
      exact ⟨account, ⟨hrow, by simp [ha, hh]⟩, rfl⟩
  · simp

theorem mem_foundAudience :
    (toEverybody env db room message = true ∧ u ∈ foundAudience env db room message) ↔ Addressed env db room message u := by
  unfold toEverybody foundAudience Addressed
  rcases env.fails .participants
  · simp only [Bool.false_eq_true, if_false, Bool.or_eq_true, Bool.and_eq_true, decide_eq_true_eq, true_and]
    exact and_comm
  · simp

theorem mem_reasons (hu : u ≠ message.authorId) : (u, kind) ∈ reasons env db room message ↔ Applies env db room message u kind := by
  have hnamed : (u, kind) ∈ (foundNamed env db message).map (·, NotificationKind.mention) ↔
      kind = .mention ∧ Named env db message u := by
    rw [← mem_foundNamed hu, List.mem_map]
    constructor
    · rintro ⟨v, hv, heq⟩
      cases heq
      exact ⟨rfl, hv⟩
    · rintro ⟨rfl, hv⟩
      exact ⟨u, hv, rfl⟩
  have haddressed : (u, kind) ∈ (if toEverybody env db room message then
      (foundAudience env db room message).map (·, addressedKind room) else []) ↔
        kind = addressedKind room ∧ Addressed env db room message u := by
    rw [← mem_foundAudience]
    split
    · rename_i hall
      rw [List.mem_map]
      constructor
      · rintro ⟨v, hv, heq⟩
        cases heq
        exact ⟨rfl, hall, hv⟩
      · rintro ⟨rfl, -, hv⟩
        exact ⟨u, hv, rfl⟩
    · rename_i hnot
      exact iff_of_false List.not_mem_nil fun h => hnot h.2.1
  unfold reasons Applies
  rw [List.mem_append, hnamed, haddressed]

theorem ranked_reasons : Ranked (reasons env db room message) := by
  have hkind : ∀ f ∈ reasons env db room message, f.2 = .mention ∨ f.2 = addressedKind room := by
    intro f hf
    unfold reasons at hf
    rcases List.mem_append.1 hf with hf | hf
    · obtain ⟨_, -, rfl⟩ := List.mem_map.1 hf
      exact .inl rfl
    · split at hf
      · obtain ⟨_, -, rfl⟩ := List.mem_map.1 hf
        exact .inr rfl
      · cases hf
  -- a message is to everybody for one kind of reason, and being named outranks it
  have haddressed : rank (addressedKind room) < rank .mention := by
    unfold addressedKind
    split <;> decide
  intro f hf g hg hrank
  rcases hkind f hf with hf | hf <;> rcases hkind g hg with hg | hg <;> rw [hf, hg] at hrank ⊢ <;> omega

/-- Nobody but the other participants, and those who are named beside the author, has a reason. -/
theorem Applies.other (h : Applies env db room message u kind) : u ≠ message.authorId := by
  rcases h with ⟨-, h⟩ | ⟨-, -, h, -⟩
  · exact h.2.1
  · simpa using (List.mem_filter.1 h).2

theorem strongest_iff : Strongest message.authorId (reasons env db room message) u kind ↔ AppliesBest env db room message u kind := by
  constructor
  · rintro ⟨hother, hreason, hbest⟩
    exact ⟨(mem_reasons hother).1 hreason, fun k hk => hbest k ((mem_reasons hother).2 hk)⟩
  · rintro ⟨happlies, hbest⟩
    have hother := happlies.other
    exact ⟨hother, (mem_reasons hother).2 happlies, fun k hk => hbest k ((mem_reasons hother).1 hk)⟩

theorem mem_plan {new : NewNotification} : new ∈ planned env db room message actor ↔
    ∃ u kind, AppliesBest env db room message u kind ∧ isReading env room u = false ∧
      (kind = .mention ∨ hasMuted env u = false) ∧ new = newFor room message actor u kind := by
  rw [planned_eq, plan_eq]
  simp only [List.mem_map, List.mem_filter, Map.mem_rows, get_considered ranked_reasons, strongest_iff, tells]
  constructor
  · rintro ⟨e, ⟨hbest, htells⟩, rfl⟩
    obtain ⟨hreading, hmuted⟩ := Bool.and_eq_true_iff.1 htells
    exact ⟨e.key, e.val, hbest, by simpa using hreading, by simpa using hmuted, rfl⟩
  · rintro ⟨u, kind, hbest, hreading, hmuted, rfl⟩
    exact ⟨⟨u, kind⟩, ⟨hbest, by simpa [hreading] using hmuted⟩, rfl⟩

end Plan

/-! ### Nobody can say who is reading -/

/-- `eve` has the channel in front of her, and the store that knows of it does not answer. -/
def unanswered : Surroundings :=
  { quiet with attention := Attention.empty.focus ⟨1⟩ ⟨3⟩ ⟨5⟩ 0, fails := fun lookup => lookup = .attention }

end Genzh.Notification
