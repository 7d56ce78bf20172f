/-
Blocks, and the lists of people that are remembered. Whoever is blocked is left out by a query, at the moment it runs; a
list that has been computed before is another matter, so the route that blocks drops what is remembered for the one side,
and then for the other.

`unblocked_only` is about every interleaving of requests for recommendations with calls of the social routes: a list names
nobody on the other side of a block that was there when its route returned, as long as no request for people that has read
its blocks before is still under way when the lists of its viewer are dropped.
-/
import Genzh.Recommend.Quarantine
import Genzh.Social.Friendships

namespace Genzh.Recommend

open Genzh.Lib Genzh.Domain Genzh.Infrastructure Genzh.Community Genzh.Social

/-! ## Who is named -/

/-- Is an account among the people of a list? -/
def Recommendations.namesUser (x : UserId) : Recommendations → Bool
  | .rooms _ => false
  | .people list => list.any fun p => p.userId = x
  | .communities _ => false

section Names

variable {x : UserId} {db : Db} {signals : ViewerSignals} {full : Recommendations}

theorem namesUser_take {limit : Nat} (h : (full.take limit).namesUser x = true) : full.namesUser x = true := by
  cases full with
  | rooms list => cases h
  | people list =>
    obtain ⟨p, hp, hx⟩ := List.any_eq_true.1 h
    exact List.any_eq_true.2 ⟨p, List.mem_of_mem_take hp, hx⟩
  | communities list => cases h

theorem candidate_not_excluded {limit : Int} {c : PersonCandidate} (h : c ∈ personCandidates db signals limit) :
    c.id ∉ signals.excludedUsers := by
  have hmem := (List.mem_insertionSort _).1 (List.mem_of_mem_take h)
  obtain ⟨u, hu, rfl⟩ := List.mem_map.1 (List.mem_filter.1 hmem).1
  obtain ⟨-, heligible⟩ := Table.mem_select.1 hu
  simp only [Bool.and_eq_true, Bool.not_eq_true', List.contains_eq_mem, decide_eq_false_iff_not] at heligible
  exact heligible.1.2

/-- Nobody is recommended whom the signals exclude. -/
theorem namesUser_compute {halving : ℚ → ℚ} {ask : Ask} (h : (compute halving ask signals db).namesUser x = true) :
    ask.surface = .people ∧ x ∉ signals.excludedUsers := by
  unfold compute at h
  split at h
  · cases h
  · rename_i hpeople
    obtain ⟨p, hp, hx⟩ := List.any_eq_true.1 h
    obtain ⟨entry, hentry, rfl⟩ := List.mem_map.1 hp
    rw [← of_decide_eq_true hx]
    exact ⟨hpeople, candidate_not_excluded (item_mem_best hentry)⟩
  · cases h

theorem mem_blockedWith {u : UserId} (h : blockedEitherWay db u x = true) : x ∈ blockedWith db u := by
  unfold blockedWith
  rcases Bool.or_eq_true _ _ ▸ h with hrow | hrow
  · obtain ⟨row, hfind⟩ := Table.contains_iff.1 hrow
    obtain ⟨hmem, hkey⟩ := Table.find_eq_some.1 hfind
    obtain ⟨hu, hx⟩ := Prod.mk.inj hkey
    exact List.mem_append_left _ (List.mem_map.2 ⟨row, Table.mem_select.2 ⟨hmem, decide_eq_true hu⟩, hx⟩)
  · obtain ⟨row, hfind⟩ := Table.contains_iff.1 hrow
    obtain ⟨hmem, hkey⟩ := Table.find_eq_some.1 hfind
    obtain ⟨hx, hu⟩ := Prod.mk.inj hkey
    exact List.mem_append_right _ (List.mem_map.2 ⟨row, Table.mem_select.2 ⟨hmem, decide_eq_true hu⟩, hx⟩)

end Names

/-! ## Routes -/

/-- Whose lists a route drops when the service has done what was asked: the caller's, and the other's. Asking for a
friendship changes nobody's. -/
def sides : SocialRequest → Option (UserId × UserId)
  | .requestFriend _ _ => none
  | .respond addressee requester _ => some (addressee, requester)
  | .removeFriend user other => some (user, other)
  | .block blocker blocked => some (blocker, blocked)
  | .unblock blocker blocked => some (blocker, blocked)

/-- How far a route has come. -/
inductive Route where
  | recommending (ask : Ask) (progress : Progress)
  | serving (r : SocialRequest) (call : SocialCall)
  /-- The service is done, and the caller's lists are dropped next. -/
  | forgetting (r : SocialRequest)
  /-- The lists of the other are dropped next. -/
  | forgettingOther (r : SocialRequest)
  | returned (r : SocialRequest)
  | refused (r : SocialRequest) (e : ServiceError)

namespace Route

/-- Whose lists are dropped by the next statement, and who is on the other side. -/
def drops : Route → Option (UserId × UserId)
  | forgetting r => sides r
  | forgettingOther r => (sides r).map Prod.swap
  | _ => none

/-- The next statement of a route. -/
def advance (halving : ℚ → ℚ) (route : Route) (s : RecommendState) : Route × RecommendState :=
  match route with
  | recommending ask progress =>
    (recommending ask (progress.advance halving ask s).1, (progress.advance halving ask s).2)
  | serving r (.answered (.ok _)) => (forgetting r, s)
  | serving r (.answered (.error e)) => (refused r e, s)
  | serving r call => (serving r (call.advance s.toDb).1, { s with toDb := (call.advance s.toDb).2 })
  | forgetting r => (forgettingOther r, (sides r).elim s fun p => s.forget p.1)
  | forgettingOther r => (returned r, (sides r).elim s fun p => s.forget p.2)
  | returned r => (returned r, s)
  | refused r e => (refused r e, s)

/-- What can follow in a route. -/
inductive Next (halving : ℚ → ℚ) (s : RecommendState) : Route → Route → Prop where
  | recommending (ask : Ask) (progress : Progress) :
      Next halving s (.recommending ask progress) (.recommending ask (progress.advance halving ask s).1)
  | serving (r : SocialRequest) (call call' : SocialCall) : Next halving s (.serving r call) (.serving r call')
  | served (r : SocialRequest) (call : SocialCall) : Next halving s (.serving r call) (.forgetting r)
  | refused (r : SocialRequest) (call : SocialCall) (e : ServiceError) : Next halving s (.serving r call) (.refused r e)
  | forgot (r : SocialRequest) : Next halving s (.forgetting r) (.forgettingOther r)
  | forgotOther (r : SocialRequest) : Next halving s (.forgettingOther r) (.returned r)
  | returned (r : SocialRequest) : Next halving s (.returned r) (.returned r)
  | stays (r : SocialRequest) (e : ServiceError) : Next halving s (.refused r e) (.refused r e)

/-- The block that a route has made. -/
def made : Route → Option (UserId × UserId)
  | serving (.block blocker blocked) (.severing _ _) => some (blocker, blocked)
  | serving (.block blocker blocked) (.answered (.ok _)) => some (blocker, blocked)
  | forgetting (.block blocker blocked) => some (blocker, blocked)
  | forgettingOther (.block blocker blocked) => some (blocker, blocked)
  | returned (.block blocker blocked) => some (blocker, blocked)
  | _ => none

end Route

/-- What a route is called for. -/
inductive Errand where
  | recommend (ask : Ask)
  | social (r : SocialRequest)

def Errand.route : Errand → Route
  | .recommend ask => .recommending ask .begun
  | .social r => .serving r (.asked r)

/-- What else happens. -/
inductive Happening where
  /-- The rest of the database becomes whatever it becomes, and blocks may go, with the accounts they are about. -/
  | database (new : Db) (gone : Block → Bool)
  | forget (viewer : UserId)
  | elapse (nanos : Nat)

def Happening.apply : Happening → RecommendState → RecommendState
  | .database new gone, s => { s with toDb := { new with blocks := s.blocks.deleteWhere gone } }
  | .forget viewer, s => s.forget viewer
  | .elapse nanos, s => { s with instant := s.instant + nanos }

/-! ## Runs -/

section Runs

variable {I : Type} [DecidableEq I]

/-- A system, and which of the blocks that were made have been lifted since. -/
structure Watching (I : Type) where
  system : System RecommendState I Route
  lifted : I → Bool

namespace Watching

def start (db : Db) (errands : I → Errand) : Watching I where
  system := { store := .start db, calls := fun i => (errands i).route }
  lifted _ := false

/-- One event. A block counts as lifted from when its row is first missing. -/
def step (halving : ℚ → ℚ) (w : Watching I) (e : Event I Happening) : Watching I :=
  let next := System.step (fun _ => Route.advance halving) Happening.apply w.system e
  { system := next
    lifted := fun i => (next.calls i).made.any fun block => w.lifted i || !next.store.blocks.contains block }

omit [DecidableEq I] in
/-- A request to block has returned, and the block has not been lifted since. -/
def Standing (w : Watching I) (blocker blocked : UserId) : Prop :=
  ∃ i, w.system.calls i = .returned (.block blocker blocked) ∧ w.lifted i = false

omit [DecidableEq I] in
/-- A list that is handed out names nobody on the other side of a block that stands. -/
def Serves (halving : ℚ → ℚ) (w : Watching I) : Event I Happening → Prop
  | .turn i => ∀ ask progress list, w.system.calls i = .recommending ask progress → progress.isServed = false →
      (progress.advance halving ask w.system.store).1 = .served list →
        ∀ x, list.namesUser x = true → ¬ w.Standing ask.viewer x ∧ ¬ w.Standing x ask.viewer
  | .outside _ => True

end Watching

/-- A request has not read its blocks too early to leave `x` out of the people it finds. -/
def Ask.spares (ask : Ask) (x : UserId) : Progress → Prop
  | .signalled signals => ask.surface = .people → x ∈ signals.excludedUsers
  | .computed full => full.namesUser x = false
  | _ => True

namespace Watching

omit [DecidableEq I] in
/-- No request of the viewer under way is about to find `x`, or has. -/
def Settled (w : Watching I) (viewer x : UserId) : Prop :=
  ∀ j ask progress, w.system.calls j = .recommending ask progress → ask.viewer = viewer → ask.spares x progress

omit [DecidableEq I] in
/-- When a route that blocks drops what is remembered for a viewer, no request of theirs is under way that has read its
blocks too early. -/
def Timely (w : Watching I) : Event I Happening → Prop
  | .turn i => ∀ block viewer x, (w.system.calls i).made = some block → w.lifted i = false →
      (w.system.calls i).drops = some (viewer, x) → w.Settled viewer x
  | .outside _ => True

end Watching

/-! ## One statement -/

section Statements

variable {halving : ℚ → ℚ} {ask : Ask} {progress : Progress} {route : Route} {s : RecommendState} {x : UserId}

theorem viewer_key (ask : Ask) : ask.key.viewer = ask.viewer := by
  unfold Ask.key
  cases ask.surface <;> rfl

/-- Under a block, a request goes on sparing whom it has spared: it reads the block, or it has. -/
theorem spares_advance (hblock : blockedEitherWay s.toDb ask.viewer x = true) (h : ask.spares x progress) :
    ask.spares x (progress.advance halving ask s).1 := by
  cases progress with
  | begun =>
    simp only [Progress.advance]
    split <;> trivial
  | roomsRead friends communities rooms => exact fun _ => List.mem_cons_of_mem _ (mem_blockedWith hblock)
  | signalled signals =>
    refine Bool.eq_false_of_not_eq_true fun hnames => ?_
    obtain ⟨hpeople, hfree⟩ := namesUser_compute hnames
    exact hfree (h hpeople)
  | missed => trivial
  | friendsRead friends => trivial
  | communitiesRead friends communities => trivial
  | computed full => trivial
  | served list => trivial

theorem next_advance (halving : ℚ → ℚ) (route : Route) (s : RecommendState) :
    route.Next halving s (route.advance halving s).1 := by
  cases route with
  | recommending ask progress => exact .recommending ask progress
  | serving r call =>
    cases call with
    | answered result =>
      cases result with
      | ok _ => exact .served r _
      | error e => exact .refused r _ e
    | _ => exact .serving r _ _
  | forgetting r => exact .forgot r
  | forgettingOther r => exact .forgotOther r
  | returned r => exact .returned r
  | refused r e => exact .stays r e

theorem recommending_of_advance {progress' : Progress}
    (h : (route.advance halving s).1 = .recommending ask progress') :
    ∃ progress, route = .recommending ask progress ∧ progress' = (progress.advance halving ask s).1 := by
  have hnext := next_advance halving route s
  rw [h] at hnext
  cases hnext with
  | recommending ask progress => exact ⟨progress, rfl, rfl⟩

theorem forgettingOther_of_advance {r : SocialRequest} (h : (route.advance halving s).1 = .forgettingOther r) :
    route = .forgetting r := by
  have hnext := next_advance halving route s
  rw [h] at hnext
  cases hnext with
  | forgot r => rfl

theorem returned_of_advance {r : SocialRequest} (h : (route.advance halving s).1 = .returned r) :
    route = .forgettingOther r ∨ route = .returned r := by
  have hnext := next_advance halving route s
  rw [h] at hnext
  cases hnext with
  | forgotOther r => exact .inl rfl
  | returned r => exact .inr rfl

theorem remembers_elim_forget {p : Option (UserId × UserId)} {side : UserId × UserId → UserId} {key : CacheKey}
    {full : Recommendations} (h : (p.elim s fun q => s.forget (side q)).Remembers key full) : s.Remembers key full := by
  cases p with
  | none => exact h
  | some q => exact remembers_forget h

/-- A list that is remembered after a statement was remembered before it, or has just been computed by a request. -/
theorem remembers_advance {key : CacheKey} {full : Recommendations} (h : (route.advance halving s).2.Remembers key full) :
    s.Remembers key full ∨ ∃ ask, route = .recommending ask (.computed full) ∧ key = ask.key := by
  cases route with
  | recommending ask progress =>
    rcases hnew : (Call.recommending ask progress).remembers with _ | ⟨ask', full'⟩
    · exact .inl ((remembers_congr (caches_advance hnew s)).1 h)
    · cases call_of_remembers hnew
      rcases remembers_remember h with ⟨rfl, rfl⟩ | ⟨-, hbefore⟩
      · exact .inr ⟨ask, rfl, rfl⟩
      · exact .inl hbefore
  | serving r call =>
    refine .inl ((remembers_congr ?_).1 h)
    cases call with
    | answered result => cases result <;> rfl
    | _ => rfl
  | forgetting r => exact .inl (remembers_elim_forget h)
  | forgettingOther r => exact .inl (remembers_elim_forget h)
  | returned r => exact .inl h
  | refused r e => exact .inl h

/-- What is remembered for a viewer is gone when it has been dropped. -/
theorem not_remembers_forget {viewer : UserId} {key : CacheKey} {full : Recommendations} (hkey : key.viewer = viewer) :
    ¬ (s.forget viewer).Remembers key full := by
  intro h
  cases full <;> obtain ⟨e, he, -⟩ := h <;> exact (RecommendationCache.get_forgetViewer he).2 hkey

theorem store_of_drops (halving : ℚ → ℚ) (s : RecommendState) {viewer : UserId} (h : route.drops = some (viewer, x)) :
    (route.advance halving s).2 = s.forget viewer ∧ ∀ ask progress, route ≠ .recommending ask progress := by
  cases route with
  | forgetting r =>
    have hsides : sides r = some (viewer, x) := h
    refine ⟨?_, fun ask progress hroute => by cases hroute⟩
    simp only [Route.advance, hsides, Option.elim_some]
  | forgettingOther r =>
    obtain ⟨⟨a, b⟩, hsides, hswap⟩ := Option.map_eq_some_iff.1 h
    cases hswap
    refine ⟨?_, fun ask progress hroute => by cases hroute⟩
    simp only [Route.advance, hsides, Option.elim_some]
  | recommending ask progress => cases h
  | serving r call => cases h
  | returned r => cases h
  | refused r e => cases h

end Statements

/-! ## Nothing left to show -/

section Invariant

variable {halving : ℚ → ℚ} {w : Watching I} {viewer x : UserId}

/-- Neither a request under way nor a list that is remembered has `x` to show to the viewer. -/
structure Watching.Clear (w : Watching I) (viewer x : UserId) : Prop where
  settled : w.Settled viewer x
  forgotten : ∀ key full, key.viewer = viewer → w.system.store.Remembers key full → full.namesUser x = false

/-- Under a block, it stays like that. -/
theorem clear_step (h : w.Clear viewer x) (hblock : blockedEitherWay w.system.store.toDb viewer x = true)
    (e : Event I Happening) : (w.step halving e).Clear viewer x := by
  cases e with
  | turn i =>
    constructor
    · intro j ask progress hj hviewer
      by_cases hij : j = i
      · subst hij
        change Function.update w.system.calls j _ j = _ at hj
        rw [Function.update_self] at hj
        obtain ⟨before, hcall, rfl⟩ := recommending_of_advance hj
        subst hviewer
        exact spares_advance hblock (h.settled j ask before hcall rfl)
      · change Function.update w.system.calls i _ j = _ at hj
        rw [Function.update_of_ne hij] at hj
        exact h.settled j ask progress hj hviewer
    · intro key full hkey hheld
      change ((w.system.calls i).advance halving w.system.store).2.Remembers key full at hheld
      rcases remembers_advance hheld with hbefore | ⟨ask, hcall, rfl⟩
      · exact h.forgotten key full hkey hbefore
      · exact h.settled i ask (.computed full) hcall ((viewer_key ask).symm.trans hkey)
  | outside op =>
    refine ⟨h.settled, fun key full hkey hheld => h.forgotten key full hkey ?_⟩
    cases op with
    | forget viewer' => exact remembers_forget hheld
    | database new gone => exact (remembers_congr rfl).1 hheld
    | elapse nanos => exact (remembers_congr rfl).1 hheld

/-- Dropping what is remembered brings it about, where no request under way can bring it back. -/
theorem clear_of_drops {i : I} (hdrops : (w.system.calls i).drops = some (viewer, x)) (h : w.Settled viewer x) :
    (w.step halving (.turn i)).Clear viewer x := by
  obtain ⟨hstore, hother⟩ := store_of_drops halving w.system.store hdrops
  constructor
  · intro j ask progress hj hviewer
    by_cases hij : j = i
    · subst hij
      change Function.update w.system.calls j _ j = _ at hj
      rw [Function.update_self] at hj
      obtain ⟨before, hcall, -⟩ := recommending_of_advance hj
      exact absurd hcall (hother ask before)
    · change Function.update w.system.calls i _ j = _ at hj
      rw [Function.update_of_ne hij] at hj
      exact h j ask progress hj hviewer
  · intro key full hkey hheld
    change ((w.system.calls i).advance halving w.system.store).2.Remembers key full at hheld
    rw [hstore] at hheld
    exact absurd hheld (not_remembers_forget hkey)

/-- What the blocks that have not been lifted have brought about so far. -/
structure Kept (w : Watching I) : Prop where
  present : ∀ i block, (w.system.calls i).made = some block → w.lifted i = false → w.system.store.blocks.contains block = true
  half : ∀ i a b, w.system.calls i = .forgettingOther (.block a b) → w.lifted i = false → w.Clear a b
  whole : ∀ i a b, w.system.calls i = .returned (.block a b) → w.lifted i = false → w.Clear a b ∧ w.Clear b a

theorem not_lifted {e : Event I Happening} {i : I} {block : UserId × UserId}
    (hmade : ((w.step halving e).system.calls i).made = some block) (h : (w.step halving e).lifted i = false) :
    w.lifted i = false ∧ (w.step halving e).system.store.blocks.contains block = true := by
  change ((w.step halving e).system.calls i).made.any
    (fun block => w.lifted i || !(w.step halving e).system.store.blocks.contains block) = false at h
  rw [hmade] at h
  simpa using h

omit [DecidableEq I] in
theorem Kept.blocked (h : Kept w) {i : I} {a b : UserId} (hmade : (w.system.calls i).made = some (a, b))
    (hlifted : w.lifted i = false) :
    blockedEitherWay w.system.store.toDb a b = true ∧ blockedEitherWay w.system.store.toDb b a = true := by
  have hrow := h.present i (a, b) hmade hlifted
  unfold blockedEitherWay
  exact ⟨by rw [hrow]; rfl, by rw [hrow, Bool.or_true]⟩

theorem kept_step (h : Kept w) {e : Event I Happening} (htimely : w.Timely e) : Kept (w.step halving e) := by
  constructor
  · intro i block hmade hlifted
    exact (not_lifted hmade hlifted).2
  · intro i a b hcall hlifted
    have hbefore := (not_lifted (by rw [hcall]; rfl) hlifted).1
    -- the route has dropped the lists of the one side now, or some time ago
    have hcases : w.system.calls i = .forgettingOther (.block a b) ∨
        e = .turn i ∧ w.system.calls i = .forgetting (.block a b) := by
      cases e with
      | outside op => exact .inl hcall
      | turn j =>
        by_cases hij : i = j
        · subst hij
          change Function.update w.system.calls i _ i = _ at hcall
          rw [Function.update_self] at hcall
          exact .inr ⟨rfl, forgettingOther_of_advance hcall⟩
        · change Function.update w.system.calls j _ i = _ at hcall
          rw [Function.update_of_ne hij] at hcall
          exact .inl hcall
    rcases hcases with hthen | ⟨rfl, hnow⟩
    · exact clear_step (h.half i a b hthen hbefore) (h.blocked (by rw [hthen]; rfl) hbefore).1 e
    · refine clear_of_drops (by rw [hnow]; rfl) (htimely (a, b) a b (by rw [hnow]; rfl) hbefore (by rw [hnow]; rfl))
  · intro i a b hcall hlifted
    have hbefore := (not_lifted (by rw [hcall]; rfl) hlifted).1
    have hcases : w.system.calls i = .returned (.block a b) ∨
        e = .turn i ∧ w.system.calls i = .forgettingOther (.block a b) := by
      cases e with
      | outside op => exact .inl hcall
      | turn j =>
        by_cases hij : i = j
        · subst hij
          change Function.update w.system.calls i _ i = _ at hcall
          rw [Function.update_self] at hcall
          exact (returned_of_advance hcall).symm.imp_right fun hthen => ⟨rfl, hthen⟩
        · change Function.update w.system.calls j _ i = _ at hcall
          rw [Function.update_of_ne hij] at hcall
          exact .inl hcall
    rcases hcases with hthen | ⟨rfl, hnow⟩
    · obtain ⟨hab, hba⟩ := h.blocked (by rw [hthen]; rfl) hbefore
      obtain ⟨hclear, hclear'⟩ := h.whole i a b hthen hbefore
      exact ⟨clear_step hclear hab e, clear_step hclear' hba e⟩
    · have hab := (h.blocked (by rw [hnow]; rfl) hbefore).1
      refine ⟨clear_step (h.half i a b hnow hbefore) hab _, ?_⟩
      exact clear_of_drops (by rw [hnow]; rfl) (htimely (a, b) b a (by rw [hnow]; rfl) hbefore (by rw [hnow]; rfl))

omit [DecidableEq I] in
theorem kept_start (db : Db) (errands : I → Errand) : Kept (Watching.start db errands) := by
  have hmade : ∀ i, (errands i).route.made = none := by
    intro i
    rcases errands i with ask | r
    · rfl
    · cases r <;> rfl
  constructor
  · intro i block h
    cases (hmade i).symm.trans h
  · intro i a b h
    have := congrArg Route.made h
    cases (hmade i).symm.trans this
  · intro i a b h
    have := congrArg Route.made h
    cases (hmade i).symm.trans this

/-! ## Lists that are handed out -/

omit [DecidableEq I] in
/-- A list that is handed out comes from what is remembered, or from the request itself. -/
theorem not_names_of_clear {i : I} {ask : Ask} {progress : Progress} {list : Recommendations}
    (h : w.Clear ask.viewer x) (hcall : w.system.calls i = .recommending ask progress) (hopen : progress.isServed = false)
    (hserved : (progress.advance halving ask w.system.store).1 = .served list) : list.namesUser x = false := by
  refine Bool.eq_false_of_not_eq_true fun hnames => ?_
  rcases served_of_advance hopen hserved with ⟨hit, rfl, hr, rfl⟩ | ⟨full, rfl, rfl⟩
  · have hnot := h.forgotten ask.key hit (viewer_key ask) (remembers_of_remembered hr)
    rw [namesUser_take hnames] at hnot
    cases hnot
  · have hnot := h.settled i ask (.computed full) hcall rfl
    exact absurd (namesUser_take hnames) (ne_true_of_eq_false hnot)

omit [DecidableEq I] in
theorem serves_of_kept (h : Kept w) (e : Event I Happening) : w.Serves halving e := by
  cases e with
  | outside op => trivial
  | turn i =>
    intro ask progress list hcall hopen hserved x hnames
    constructor
    · rintro ⟨j, hj, hlifted⟩
      have := not_names_of_clear (h.whole j _ _ hj hlifted).1 hcall hopen hserved
      exact absurd hnames (by rw [this]; decide)
    · rintro ⟨j, hj, hlifted⟩
      have := not_names_of_clear (h.whole j _ _ hj hlifted).2 hcall hopen hserved
      exact absurd hnames (by rw [this]; decide)

/-- In every run in which no request for people is under way with blocks it has read too early, whenever a route that
blocks drops the lists of its viewer: from when the request to block has returned until the block is lifted, no list that
is handed out to either of the two names the other. -/
theorem unblocked_only (halving : ℚ → ℚ) (db : Db) (errands : I → Errand) (es : List (Event I Happening))
    (h : Along (Watching.step halving) Watching.Timely (Watching.start db errands) es) :
    Along (Watching.step halving) (Watching.Serves halving) (Watching.start db errands) es :=
  along_of_along (fun _ e hkept htimely => ⟨kept_step hkept htimely, serves_of_kept hkept e⟩) (kept_start db errands) h

end Invariant

end Runs

/-! ### A request that has read too early -/

/-- `ana` asks whom she might know, where she would be shown `ben`, and blocks him. -/
inductive Click where
  | people
  | block
  deriving DecidableEq

def clicks : Click → Errand
  | .people => .recommend { viewer := ⟨2⟩, surface := .people, limit := none }
  | .block => .social (.block ⟨2⟩ ⟨3⟩)

/-- Both are members of one community. -/
def sharedCommunity : Db :=
  { unvisited with
    communityMembers := ((Table.empty.insert { communityId := ⟨1⟩, userId := ⟨1⟩ }).insert
      { communityId := ⟨1⟩, userId := ⟨2⟩ }).insert { communityId := ⟨1⟩, userId := ⟨3⟩ } }

/-- All of the route that blocks lies between two statements of the request: the last that it reads signals with, and the
one that selects candidates. -/
def lateList : List (Event Click Happening) :=
  List.replicate 5 (.turn .people) ++ List.replicate 5 (.turn .block) ++ [.turn .people]

def blockedLate : Watching Click := run (Watching.step halve) (Watching.start sharedCommunity clicks) lateList

/-- The list that a route is about to hand out. -/
def Route.found : Route → Option (Ask × Recommendations)
  | .recommending ask (.computed full) => some (ask, full)
  | _ => none

def Route.answer : Route → Option SocialRequest
  | .returned r => some r
  | _ => none

theorem call_of_found {route : Route} {ask : Ask} {full : Recommendations} (h : route.found = some (ask, full)) :
    route = .recommending ask (.computed full) := by
  cases route with
  | recommending ask' progress => cases progress <;> cases h; rfl
  | _ => cases h

theorem call_of_answer {route : Route} {r : SocialRequest} (h : route.answer = some r) : route = .returned r := by
  cases route <;> cases h
  rfl

/-- The block has returned before the list is computed, and the list names him. -/
theorem block_overtaken :
    ¬ Along (Watching.step halve) (Watching.Serves halve) (Watching.start sharedCommunity clicks)
      (lateList ++ [.turn .people]) := by
  intro h
  have hserves := (along_append.1 h).2.1
  have hfound : ((blockedLate.system.calls .people).found.any fun p =>
      p.1.viewer = ⟨2⟩ && (p.2.take p.1.limitOf).namesUser ⟨3⟩) = true := by decide +kernel
  obtain ⟨⟨ask, full⟩, hcall, hnames⟩ := (Option.any_eq_true _ _).1 hfound
  obtain ⟨hviewer, hnames⟩ := Bool.and_eq_true _ _ ▸ hnames
  have hfree := (hserves ask _ _ (call_of_found hcall) rfl rfl ⟨3⟩ hnames).1
  have hreturned : (blockedLate.system.calls .block).answer = some (.block ⟨2⟩ ⟨3⟩) := by decide +kernel
  rw [of_decide_eq_true hviewer] at hfree
  exact hfree ⟨.block, call_of_answer hreturned, by decide +kernel⟩

/-- A request never drops anything, however often it is its turn. -/
theorem timely_people {w : Watching Click} {ask : Ask} :
    ∀ (n : Nat) {progress : Progress}, w.system.calls .people = .recommending ask progress →
      Along (Watching.step halve) Watching.Timely w (List.replicate n (.turn .people)) := by
  intro n
  induction n generalizing w with
  | zero => exact fun _ => trivial
  | succ n ih =>
    intro progress hcall
    refine ⟨fun block viewer x hmade => ?_, @ih _ (progress.advance halve ask w.system.store).1 ?_⟩
    · rw [hcall] at hmade
      cases hmade
    · change (Route.advance halve (w.system.calls .people) w.system.store).1 = _
      rw [hcall]
      rfl

/-- A request that has not begun has read nothing too early. -/
theorem timely_block {w : Watching Click} {ask : Ask} (hcall : w.system.calls .people = .recommending ask .begun) :
    w.Timely (.turn .block) := by
  intro block viewer x hmade _ _ j ask' progress hj _
  cases j with
  | people =>
    rw [hcall] at hj
    cases hj
    trivial
  | block =>
    rw [hj] at hmade
    cases hmade

/-- Blocking before she asks is in time. -/
theorem block_in_time :
    Along (Watching.step halve) (Watching.Serves halve) (Watching.start sharedCommunity clicks)
      (List.replicate 5 (.turn .block) ++ List.replicate 7 (.turn .people)) := by
  refine unblocked_only halve sharedCommunity clicks _ (along_append.2 ⟨?_, timely_people 7 rfl⟩)
  exact ⟨timely_block rfl, timely_block rfl, timely_block rfl, timely_block rfl, timely_block rfl, trivial⟩

end Genzh.Recommend
